import RespClient.Proofs.Connection.Messages
import RespClient.Proofs.Sentinel.Resolver.Submissions
import RespClient.Proofs.Text.Utf8

namespace RespClient.Sentinel

open Connection (commands completions messages)
open Connection.Worker (Incident Journal Move journal journal_concat)

/-- A list that begins with the word `message`, in letters of either case. -/
def Announces (x : Reply) : Prop :=
  ∃ first rest text, x = .multi (some (first :: rest)) ∧
    (first = .status text ∨ first = .bulk (some (Bytes.ofText text))) ∧ Text.lower text = "message"

theorem text?_eq_some {x : Reply} {text : String} :
    x.text? = some text ↔ x = .status text ∨ x = .bulk (some (Bytes.ofText text)) := by
  cases x with
  | bulk data =>
    cases data with
    | none => simp [Reply.text?]
    | some bs => simp [Reply.text?, Text.Utf8.strict?_eq_some]
  | _ => simp [Reply.text?]

theorem isMessage_iff {x : Reply} : isMessage x = true ↔ Announces x := by
  unfold isMessage Announces
  cases x with
  | multi items =>
    cases items with
    | none => simp [Reply.items?]
    | some items =>
      cases items with
      | nil => simp [Reply.items?]
      | cons first rest => simp [Reply.items?, Option.any_eq_true, text?_eq_some]
  | _ => simp [Reply.items?]

instance (x : Reply) : Decidable (Announces x) := decidable_of_iff _ isMessage_iff

/-- The reply that the message handler of a connection gets. -/
def Input.heardOn? (c : ConnId) : Input → Option Reply
  | .message c' x => if c' = c then some x else none
  | _ => none

def Input.isHeard : Input → Bool
  | .message _ _ => true
  | _ => false

def Action.reports : Action → Bool
  | .reportFailover => true
  | _ => false

/-- The inputs by which the observer is called, each as often as it is. -/
def Resolver.calls (r : Resolver) : List Input → List Input
  | [] => []
  | i :: is => (((r.step i).2.filter Action.reports).map fun _ => i) ++ calls (r.step i).1 is

/-- A resolver with its connections, and what has happened so far. -/
structure System where
  resolver : Resolver
  /-- What has happened to the worker of each connection. -/
  lines : ConnId → List (Incident Claim) := fun _ => []
  /-- What came in to the resolver. -/
  inputs : List Input := []
  /-- What the resolver has asked for. -/
  log : List Action := []
  /-- The inputs by which the observer was called. -/
  calls : List Input := []

inductive Happening where
  /-- A caller or a task goes on, or the resolver learns something other than a message. -/
  | input (i : Input)
  /-- The worker of a connection makes a move. -/
  | move (c : ConnId) (m : Move Claim)

namespace System

def record (lines : ConnId → List (Incident Claim)) (c : ConnId) (m : Move Claim) :
    ConnId → List (Incident Claim) := Function.update lines c (lines c ++ [.move m])

@[simp] theorem record_self (lines : ConnId → List (Incident Claim)) (c : ConnId) (m : Move Claim) :
    record lines c m c = lines c ++ [.move m] := Function.update_self ..

theorem record_of_ne (lines : ConnId → List (Incident Claim)) {c c' : ConnId} (h : c' ≠ c)
    (m : Move Claim) : record lines c' m c = lines c := Function.update_of_ne h.symm ..

/-- What an action of the resolver is for the workers. -/
def carry (lines : ConnId → List (Incident Claim)) : Action → ConnId → List (Incident Claim)
  | .submit c k frame => record lines c (.submit (.command k frame))
  | .close c => record lines c (.submit .close)
  | _ => lines

/-- The journal of a connection. -/
def line (S : System) (c : ConnId) : Journal Claim := journal (S.lines c)

def moved (S : System) : Happening → ConnId → List (Incident Claim)
  | .move c m => record S.lines c m
  | .input _ => S.lines

/-- What comes in to the resolver: the messages of a move, if they are to be heard. -/
def news (S : System) : Happening → List Input
  | .input i => [i]
  | .move c m =>
    if S.log.any (Action.watches c) then (messages ((S.line c).worker.step m).2).map (.message c)
    else []

def step (S : System) (x : Happening) : System :=
  let after := S.resolver.run (S.news x)
  { resolver := after.1
    lines := after.2.foldl carry (S.moved x)
    inputs := S.inputs ++ S.news x
    log := S.log ++ after.2
    calls := S.calls ++ S.resolver.calls (S.news x) }

def run (S : System) (xs : List Happening) : System := xs.foldl step S

/-- What may happen: messages come from workers alone, and requests to a worker from the resolver alone,
unless a caller has got the connection. -/
def Admits (S : System) : Happening → Prop
  | .input i => i.isHeard = false ∧ Resolver.Admits S.inputs S.resolver i
  | .move c m => m.request?.isNone ∨ S.log.any (Action.gives c)

instance decidableAdmits (S : System) : (x : Happening) → Decidable (S.Admits x)
  | .input i => inferInstanceAs (Decidable (i.isHeard = false ∧ Resolver.Admits S.inputs S.resolver i))
  | .move c m => inferInstanceAs (Decidable (m.request?.isNone = true ∨ S.log.any (Action.gives c) = true))

def AdmitsAll (S : System) : List Happening → Prop
  | [] => True
  | x :: xs => S.Admits x ∧ (S.step x).AdmitsAll xs

instance decidableAdmitsAll : (S : System) → (xs : List Happening) → Decidable (S.AdmitsAll xs)
  | _, [] => isTrue trivial
  | S, x :: xs =>
    have := decidableAdmitsAll (S.step x) xs
    inferInstanceAs (Decidable (S.Admits x ∧ (S.step x).AdmitsAll xs))

/-- A system whose resolver has settings `s`, and to which nothing has happened. -/
def ofSettings (s : SentinelSettings) : System := { resolver := .ofSettings s }

inductive Reaches (s : SentinelSettings) : System → Prop
  | start : Reaches s (ofSettings s)
  | step {S x} (h : Reaches s S) (hx : S.Admits x) : Reaches s (S.step x)

/-- The messages of a connection for which the observer was called. -/
def announced (S : System) (c : ConnId) : List Reply := S.calls.filterMap (Input.heardOn? c)

/-- The messages of a connection that its handler got. -/
def heard (S : System) (c : ConnId) : List Reply := S.inputs.filterMap (Input.heardOn? c)

variable {s : SentinelSettings} {S : System} {x : Happening} {xs : List Happening} {c : ConnId} {k : Claim}

theorem Reaches.run (h : Reaches s S) (hx : S.AdmitsAll xs) : Reaches s (S.run xs) := by
  induction xs generalizing S with
  | nil => exact h
  | cons x xs ih => exact ih (h.step hx.1) hx.2

end System

/-- The observer is to be called. -/
def Input.announces : Input → Bool
  | .message _ x => isMessage x
  | _ => false

namespace Resolver

variable {i : Input} {r r' core : Resolver} {acts : List Action} {t : Task} {job? fresh? : Option Job}

theorem Turn.reports (h : Turn r i t job? fresh? core acts) : acts.filter Action.reports = [] := by
  cases h with
  | resolve h => cases h <;> rfl
  | notify h => cases h <;> rfl
  | opening h => cases h <;> rfl
  | _ => rfl

theorem Event.reports (h : Event r i r' acts) (hi : i.isHeard = false) :
    acts.filter Action.reports = [] := by
  cases h with
  | turn _ h => exact h.reports
  | call => rfl
  | news h =>
    cases h with
    | message => cases hi
    | close => cases r.notifier <;> rfl
    | _ => rfl

/-- The observer is called once for each announcement, and for nothing else. -/
theorem step_reports (r : Resolver) (i : Input) :
    (r.step i).2.filter Action.reports = if i.announces then [.reportFailover] else [] := by
  cases i with
  | message c x =>
    cases hx : isMessage x with
    | true => simp [step, Input.announces, hx, Action.reports]
    | false => simp [step, Input.announces, hx]
  | _ => exact (step_event r _).reports rfl

theorem calls_eq (r : Resolver) (is : List Input) : r.calls is = is.filter Input.announces := by
  induction is generalizing r with
  | nil => rfl
  | cons i is ih =>
    rw [calls, step_reports, ih, List.filter_cons]
    split <;> rfl

end Resolver

namespace System

variable {s : SentinelSettings} {S : System} {x : Happening} {xs : List Happening} {c : ConnId} {k : Claim}

theorem Reaches.calls_eq (h : Reaches s S) : S.calls = S.inputs.filter Input.announces := by
  induction h with
  | start => rfl
  | step _ _ ih =>
    simp only [System.step, ih, Resolver.calls_eq, List.filter_append]

theorem filterMap_announces (c : ConnId) (is : List Input) :
    (is.filter Input.announces).filterMap (Input.heardOn? c) =
      (is.filterMap (Input.heardOn? c)).filter Announces := by
  induction is with
  | nil => rfl
  | cons i is ih =>
    cases i with
    | message c' y =>
      by_cases hc : c' = c <;> by_cases hy : Announces y <;>
        simp [List.filter_cons, Input.announces, isMessage_iff, Input.heardOn?, hc, hy, ih]
    | _ => exact ih

/-- The observer is called for those messages of a connection that announce something. -/
theorem Reaches.announced_eq (h : Reaches s S) (c : ConnId) :
    S.announced c = (S.heard c).filter Announces := by
  rw [announced, heard, h.calls_eq, filterMap_announces]

/-- A worker got requests and did nothing else: commands for `frames` are among them, and nobody gets a
message. -/
structure Carried (old new : List (Incident Claim)) (frames : List (Claim × Bytes)) : Prop where
  grown : old <+: new
  commands : commands (journal new).requests = commands (journal old).requests ++ frames
  messages : messages (journal new).effects = messages (journal old).effects

theorem Carried.refl (old : List (Incident Claim)) : Carried old old [] :=
  ⟨List.prefix_rfl, (List.append_nil _).symm, rfl⟩

theorem Carried.trans {old mid new : List (Incident Claim)} {frames more : List (Claim × Bytes)}
    (h : Carried old mid frames) (h' : Carried mid new more) : Carried old new (frames ++ more) :=
  ⟨h.grown.trans h'.grown, by rw [h'.commands, h.commands, List.append_assoc],
    h'.messages.trans h.messages⟩

theorem carried_submit (is : List (Incident Claim)) (r : Request Claim) :
    Carried is (is ++ [.move (.submit r)]) (commands [r]) where
  grown := List.prefix_append _ _
  commands := by
    rw [journal_concat, ← Connection.commands_append]
    rfl
  messages := by
    have hsilent : Connection.messages ((journal is).worker.submit r).2 = [] := by
      unfold Connection.Worker.submit
      split
      · rfl
      · rfl
      · exact (Connection.refusing_refuse _).messages
      · rfl
    rw [journal_concat]
    change Connection.messages ((journal is).effects ++ ((journal is).worker.submit r).2) = _
    rw [Connection.messages_append, hsilent, List.append_nil]

theorem carried_record (lines : ConnId → List (Incident Claim)) (c c' : ConnId) (r : Request Claim) :
    Carried (lines c') (record lines c (.submit r) c') (if c = c' then commands [r] else []) := by
  by_cases h : c = c'
  · subst h
    rw [if_pos rfl, record_self]
    exact carried_submit _ r
  · rw [if_neg h, record_of_ne lines h]
    exact .refl _

theorem carried_action (lines : ConnId → List (Incident Claim)) (a : Action) (c : ConnId) :
    Carried (lines c) (carry lines a c) (sentOn c [a]) := by
  cases a with
  | submit c' k frame =>
    have h := carried_record lines c' c (.command k frame)
    have hframes : sentOn c [.submit c' k frame] =
        if c' = c then commands [.command k frame] else [] := by
      by_cases hc : c' = c <;> simp [sentOn, Action.sentOn?, hc, commands, Request.command?]
    rwa [hframes]
  | close c' =>
    have h := carried_record lines c' c .close
    rwa [show (if c' = c then commands [Request.close] else []) = sentOn c [.close c'] by
      split <;> rfl] at h
  | _ => exact .refl _

theorem carried_foldl (lines : ConnId → List (Incident Claim)) (acts : List Action) (c : ConnId) :
    Carried (lines c) (acts.foldl carry lines c) (sentOn c acts) := by
  induction acts generalizing lines with
  | nil => exact .refl _
  | cons a acts ih =>
    rw [← List.singleton_append, sentOn_append]
    exact (carried_action lines a c).trans (ih _)

theorem watches_iff {log : List Action} :
    log.any (Action.watches c) = true ↔ .watchMessages c ∈ log := by
  rw [List.any_eq_true]
  constructor
  · rintro ⟨a, ha, hc⟩
    cases a with
    | watchMessages c' => exact (beq_iff_eq.mp hc) ▸ ha
    | _ => cases hc
  · exact fun h => ⟨_, h, beq_self_eq_true c⟩

theorem given_of_gives {log : List Action} (h : log.any (Action.gives c) = true) :
    Resolver.Given log c := by
  obtain ⟨a, ha, hc⟩ := List.any_eq_true.mp h
  unfold Action.gives at hc
  split at hc
  next id c' =>
    obtain rfl := beq_iff_eq.mp hc
    exact ⟨id, ha⟩
  · cases hc

/-- Messages are nothing that the surroundings of a resolver owe it. -/
theorem admitsAll_messages (is : List Input) (r : Resolver) (c : ConnId) (xs : List Reply) :
    Resolver.AdmitsAll is r (xs.map (.message c)) := by
  induction xs generalizing is r with
  | nil => trivial
  | cons x xs ih => exact ⟨trivial, ih _ _⟩

theorem admitsAll_news (hx : S.Admits x) : Resolver.AdmitsAll S.inputs S.resolver (S.news x) := by
  cases x with
  | input i => exact ⟨hx.2, trivial⟩
  | move c m =>
    simp only [news]
    split
    · exact admitsAll_messages _ _ _ _
    · trivial

/-- The workers have got what the resolver has submitted, but for those of the callers. -/
structure Sound (s : SentinelSettings) (S : System) : Prop where
  resolver : Resolver.Reaches s S.inputs S.resolver S.log
  requests : ∀ c, ¬ Resolver.Given S.log c → commands (S.line c).requests = sentOn c S.log

theorem carried_step (S : System) (x : Happening) (c : ConnId) :
    Carried (S.moved x c) ((S.step x).lines c) (sentOn c (S.resolver.run (S.news x)).2) :=
  carried_foldl _ _ c

theorem requests_moved (hx : S.Admits x) (hc : ¬ Resolver.Given S.log c) :
    commands (journal (S.moved x c)).requests = commands (S.line c).requests := by
  cases x with
  | move c' m =>
    by_cases h : c' = c
    · subst h
      have hm : m.request? = none :=
        Option.isNone_iff_eq_none.mp (hx.resolve_right fun hg => hc (given_of_gives hg))
      rw [moved, record_self, journal_concat]
      change commands ((S.line c').requests ++ m.request?.toList) = _
      rw [hm, Option.toList_none, List.append_nil]
    · rw [moved, record_of_ne S.lines h]
      rfl
  | input => rfl

theorem Sound.step (h : Sound s S) (hx : S.Admits x) : Sound s (S.step x) where
  resolver := h.resolver.run _ (admitsAll_news hx)
  requests c hc := by
    have hbefore : ¬ Resolver.Given S.log c := fun ⟨id, hg⟩ => hc ⟨id, List.mem_append_left _ hg⟩
    rw [line, (carried_step S x c).commands, requests_moved hx hbefore, h.requests c hbefore,
      ← sentOn_append]
    rfl

theorem Reaches.sound (h : Reaches s S) : Sound s S := by
  induction h with
  | start => exact ⟨.start, fun _ _ => rfl⟩
  | step _ hx ih => exact ih.step hx

/-- What a worker gives out as a message, the handler gets, once it is to be heard. -/
theorem step_heard (hx : S.Admits x) (hw : .watchMessages c ∈ S.log) : ∃ new,
    messages ((S.step x).line c).effects = messages (S.line c).effects ++ new ∧
      (S.step x).heard c = S.heard c ++ new := by
  have hmessages := (carried_step S x c).messages
  have hheard : (S.step x).heard c = S.heard c ++ (S.news x).filterMap (Input.heardOn? c) :=
    List.filterMap_append
  cases x with
  | input i =>
    refine ⟨[], by rw [List.append_nil]; exact hmessages, ?_⟩
    have hnone : i.heardOn? c = none := by
      cases i <;> first | rfl | cases hx.1
    rw [hheard]
    simp [news, hnone]
  | move c' m =>
    by_cases h : c' = c
    · subst h
      refine ⟨messages ((S.line c').worker.step m).2, ?_, ?_⟩
      · rw [line, hmessages, moved, record_self, journal_concat]
        exact Connection.messages_append _ _
      · rw [hheard]
        simp [news, watches_iff.mpr hw, Input.heardOn?, Function.comp_def]
    · refine ⟨[], ?_, ?_⟩
      · rw [line, hmessages, List.append_nil, moved, record_of_ne S.lines h]
        rfl
      · rw [hheard]
        simp only [news]
        split <;> simp [Input.heardOn?, h]

/-- Nothing that has happened on a connection is taken back. -/
theorem run_grows (S : System) (xs : List Happening) (c : ConnId) :
    S.lines c <+: (S.run xs).lines c ∧ S.log <+: (S.run xs).log := by
  induction xs generalizing S with
  | nil => exact ⟨List.prefix_rfl, List.prefix_rfl⟩
  | cons x xs ih =>
    obtain ⟨hlines, hlog⟩ := ih (S.step x)
    have hmoved : S.lines c <+: S.moved x c := by
      cases x with
      | input => exact List.prefix_rfl
      | move c' m =>
        by_cases h : c' = c
        · subst h
          rw [moved, record_self]
          exact List.prefix_append _ _
        · rw [moved, record_of_ne S.lines h]
    exact ⟨(hmoved.trans (carried_step S x c).grown).trans hlines,
      (List.prefix_append _ _).trans hlog⟩

theorem run_heard (hx : S.AdmitsAll xs) (hw : .watchMessages c ∈ S.log) : ∃ new,
    messages ((S.run xs).line c).effects = messages (S.line c).effects ++ new ∧
      (S.run xs).heard c = S.heard c ++ new := by
  induction xs generalizing S with
  | nil => exact ⟨[], (List.append_nil _).symm, (List.append_nil _).symm⟩
  | cons x xs ih =>
    obtain ⟨first, hfirst, hheard⟩ := step_heard hx.1 hw
    obtain ⟨later, hlater, hheard'⟩ := ih hx.2 (List.mem_append_left _ hw)
    refine ⟨first ++ later, ?_, ?_⟩
    · exact hlater.trans (by rw [hfirst, List.append_assoc])
    · exact hheard'.trans (by rw [hheard, List.append_assoc])

/-- The messages that handlers get are of connections that are to be heard. -/
theorem Reaches.watched (h : Reaches s S) {y : Reply} (hy : .message c y ∈ S.inputs) :
    .watchMessages c ∈ S.log := by
  induction h with
  | start => cases hy
  | @step S x _ hx ih =>
    rcases List.mem_append.mp hy with hy | hy
    · exact List.mem_append_left _ (ih hy)
    · refine List.mem_append_left _ ?_
      cases x with
      | input i =>
        obtain rfl := List.mem_singleton.mp hy
        cases hx.1
      | move c' m =>
        simp only [news] at hy
        split at hy
        next hw =>
          obtain ⟨y', -, he⟩ := List.mem_map.mp hy
          cases he
          exact watches_iff.mp hw
        · cases hy

/-- On the connection of a subscription nothing else is submitted. -/
theorem Reaches.commands_eq (h : Reaches s S)
    (hk : .submit c k subscriptionFrame ∈ S.log) :
    commands (S.line c).requests = [(k, subscriptionFrame)] := by
  obtain ⟨hsent, -, hg⟩ := h.sound.resolver.subscribed hk
  rw [h.sound.requests c hg, hsent]

/-- A worker that has written its only command and no reply to it waits for that one. -/
theorem outstanding_singleton {is : List (Incident Claim)} {frame : Bytes}
    (hs : (journal is).worker.stage.Serves) (hw : (journal is).written = [(k, frame)])
    (hall : (journal is).written = commands (journal is).requests)
    (hopen : k ∉ (completions (journal is).effects).map (·.1)) :
    (journal is).worker.connection.outstanding = [k] := by
  have hnone : completions (journal is).effects = [] := by
    obtain ⟨rs, refused, -, hcom, -, hserves⟩ := Connection.Worker.outcomes_journal is
    rw [hserves hs, List.append_nil, hw] at hcom
    cases rs with
    | nil => exact hcom
    | cons r rs =>
      rw [hcom] at hopen
      exact absurd (List.mem_cons_self ..) hopen
  rw [Connection.Worker.outstanding_journal hs hall, hw, hnone]
  rfl

/-- No announcement is lost, and none is made up. Let the subscription be written on a connection, and not
answered. Whatever happens next, the first reply that comes on that connection is the answer. From then on
the observer is called once for each reply that announces something, in order and as far as the replies go
in the bytes that are read, however those are cut; and it is called for nothing else, as there are no calls
but for announcements on a connection that was to be heard. -/
theorem announcements_reported (h : Reaches s S)
    (hsub : .submit c k subscriptionFrame ∈ S.log)
    (hsent : (k, subscriptionFrame) ∈ (S.line c).written)
    (hopen : k ∉ (completions (S.line c).effects).map (·.1)) (hx : S.AdmitsAll xs) :
    let S' := S.run xs
    (∃ replies, Reply.decoded (Connection.Worker.read (S'.lines c)) =
        Reply.decoded (Connection.Worker.read (S.lines c)) ++ replies ∧
      (∀ answer ∈ replies.head?, (k, Outcome.ofReply answer) ∈ completions (S'.line c).effects) ∧
      S'.announced c = S.announced c ++ replies.tail.filter Announces) ∧
    ∀ i ∈ S'.calls, ∃ c' y, i = .message c' y ∧ .watchMessages c' ∈ S'.log ∧ Announces y := by
  intro S'
  have hr : Reaches s S' := h.run hx
  obtain ⟨⟨js, hjs⟩, hlog⟩ := run_grows S xs c
  have hwritten : (S.line c).written = [(k, subscriptionFrame)] := by
    have hprefix := Connection.Worker.written_journal (S.lines c)
    rw [← line, h.commands_eq hsub] at hprefix
    exact hprefix.eq_of_length_le (List.length_pos_of_mem hsent)
  have hall : commands (journal (S.lines c ++ js)).requests = (journal (S.lines c)).written := by
    rw [hjs]
    exact (hr.commands_eq (hlog.subset hsub)).trans hwritten.symm
  obtain ⟨new, hdecoded, hb⟩ := Connection.Worker.messages_since hall
  rw [hjs] at hdecoded hb
  have hrest : (journal (S.lines c)).worker.connection.outstanding = [k] ∨ new = [] :=
    hb.serves.imp_left fun hs =>
      outstanding_singleton hs hwritten (hwritten.trans (h.commands_eq hsub).symm) hopen
  refine ⟨⟨new, hdecoded, ?_, ?_⟩, ?_⟩
  · intro answer ha
    obtain ⟨refused, hcom, -⟩ := hb.completions
    rcases hrest with hout | rfl
    · obtain ⟨later, rfl⟩ : ∃ later, new = answer :: later := ⟨_, List.eq_cons_of_mem_head? ha⟩
      change _ ∈ completions (journal (S'.lines c)).effects
      rw [hcom, hout]
      simp
    · cases ha
  · obtain ⟨msgs, hmsgs, hheard⟩ := run_heard hx (h.sound.resolver.subscribed hsub).2.1
    have hdrop : msgs = new.drop (journal (S.lines c)).worker.connection.outstanding.length :=
      List.append_cancel_left (hmsgs.symm.trans hb.messages)
    have htail : msgs = new.tail := by
      rcases hrest with hout | rfl
      · rw [hdrop, hout]
        exact List.drop_one
      · rw [hdrop]
        exact List.drop_nil
    rw [hr.announced_eq, hheard, List.filter_append, ← h.announced_eq, htail]
  · intro i hi
    rw [hr.calls_eq, List.mem_filter] at hi
    obtain ⟨hi, ha⟩ := hi
    cases i with
    | message c' y => exact ⟨c', y, rfl, hr.watched hi, isMessage_iff.mp ha⟩
    | _ => cases ha

/-- The connection that is to listen is opened, and the subscription is written on it. -/
def subscribing : List Happening :=
  (Resolver.opening.take 17).map .input ++
    [.move 1 (.advance true), .move 1 (.advance true), .move 1 (.wrote none)]

/-- The answer with the front of an announcement behind it, then what is left of that, two replies that
are none, another announcement and malformed bytes. -/
def glued : List Happening :=
  [.move 1 (.received (Bytes.ofText "*1\r\n+subscribe\r\n*1\r\n$7\r\nMess")),
    .move 1 (.received (Bytes.ofText "age\r\n*1\r\n*1\r\n+message\r\n+message\r\n*1\r\n+MESSAGE\r\n!"))]

/-- The observer is called for the two. -/
theorem announcements_reported_glued :
    let S' := ((ofSettings { endpoints := ["a:1"] }).run subscribing).run glued
    (S'.announced 1).map Reply.render = ["1) \"Message\"", "1) MESSAGE"] := by
  intro S'
  let S := (ofSettings { endpoints := ["a:1"] }).run subscribing
  have hS : Reaches { endpoints := ["a:1"] } S := Reaches.start.run (by decide +kernel)
  have hsub : S.log[6]? = some (.submit 1 4 subscriptionFrame) := rfl
  obtain ⟨⟨replies, hdecoded, -, hannounced⟩, -⟩ := announcements_reported hS
    (List.mem_of_getElem? hsub) (by decide +kernel) (by decide +kernel)
    (show S.AdmitsAll glued by decide +kernel)
  have hbefore : Reply.decoded (Connection.Worker.read (S.lines 1)) = [] :=
    List.eq_nil_of_length_eq_zero (by decide +kernel)
  rw [hbefore, List.nil_append] at hdecoded
  have hnone : S.announced 1 = [] := rfl
  rw [hannounced, hnone, ← hdecoded]
  decide +kernel

end System

end RespClient.Sentinel
