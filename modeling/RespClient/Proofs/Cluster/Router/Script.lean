import Mathlib
import RespClient.Proofs.Cluster.Router.Forest

namespace RespClient.Cluster

/-- What happens to one command. -/
inductive Deed where
  /-- The connection attempt or the pooled connection that it waited for. -/
  | reached (address : String) (result : Except ClientError ConnId)
  | sent (address : String) (c : ConnId) (claim : Claim) (frame : Bytes)
  /-- The connection takes no frame any more. -/
  | refused
  | answered (claim : Claim) (o : Outcome)
  | refreshed (result : Except ClientError Unit)
  | rest (ms : Nat)
  | rested
  | concluded (o : Outcome)

namespace Router

/-- What a command takes up with the next step of its task. -/
def takesUp (r : Router) (s : Sending) : List Deed :=
  match s.stage with
  | .reaching _ d _ =>
    match r.job? d with
    | some (.dial address (.done result)) => [.reached address result]
    | _ => []
  | .submit c | .submitAsking c | .submitAsked c _ => if r.isDown c then [.refused] else []
  | .awaiting _ k =>
    match r.mail? k with
    | some o => [.answered k o]
    | none => []
  | .refreshing _ _ d =>
    match r.refreshResult? d with
    | some result => [.refreshed result]
    | none => []
  | _ => []

/-- What an action of its task is for a command. -/
def givesOut (r : Router) : Action → Option Deed
  | .submit c k frame => some (.sent (r.origin c) c k frame)
  | .rest _ ms => some (.rest ms)
  | .finish _ (.sent o) => some (.concluded o)
  | _ => none

/-- What an input means for the command of task `id`. -/
def deeds (r : Router) (id : TaskId) (i : Input) : List Deed :=
  match r.job? id with
  | some (.send s) =>
    match i with
    | .step id' _ => if id' = id then r.takesUp s ++ (r.step i).2.filterMap r.givesOut else []
    | .rested id' =>
      match s.stage with
      | .resting _ => if id' = id then [.rested] else []
      | _ => []
    | _ => []
  | _ => []

/-- All that happens to the command of task `id`, in order. -/
def course (r : Router) (id : TaskId) : List Input → List Deed
  | [] => []
  | i :: is => r.deeds id i ++ (r.step i).1.course id is

/-- The outcomes that the caller of task `id` gets. -/
def returned (id : TaskId) (acts : List Action) : List Outcome :=
  acts.filterMap fun
    | .finish id' (.sent o) => if id' = id then some o else none
    | _ => none

@[simp] theorem returned_append (id : TaskId) (acts acts' : List Action) :
    returned id (acts ++ acts') = returned id acts ++ returned id acts' := List.filterMap_append

theorem mem_returned {id : TaskId} {acts : List Action} {o : Outcome} :
    o ∈ returned id acts ↔ .finish id (.sent o) ∈ acts := by
  refine ⟨fun h => ?_, fun h => List.mem_filterMap.mpr ⟨_, h, if_pos rfl⟩⟩
  obtain ⟨a, ha, he⟩ := List.mem_filterMap.mp h
  split at he
  next id' o' =>
    split at he
    next hid =>
      cases hid
      cases he
      exact ha
    · cases he
  · cases he

theorem course_concat (r : Router) (id : TaskId) (js : List Input) (i : Input) :
    r.course id (js ++ [i]) = r.course id js ++ (r.run js).1.deeds id i := by
  induction js generalizing r with
  | nil => simp [course, run]
  | cons j js ih => simp [course, run, ih, List.append_assoc]

variable {s : ClusterSettings} {is later : List Input} {r r' : Router} {log acts : List Action}

theorem Event.mail {i : Input} (h : Event r i r' acts) {k : Claim} {o : Outcome}
    (hm : (k, o) ∈ r'.mail) : (k, o) ∈ r.mail ∨ i = .reply k o := by
  cases h with
  | turn _ h =>
    rw [turn_eq] at hm
    refine .inl ?_
    cases h with
    | dial h =>
      cases h with
      | greeted | rebuffed => exact List.mem_of_mem_filter hm
      | _ => exact hm
    | refresh h =>
      cases h with
      | rebuffed | load => exact List.mem_of_mem_filter hm
      | _ => exact hm
    | send h =>
      cases h with
      | asked | answer | moved | shift | again => exact List.mem_of_mem_filter hm
      | _ => exact hm
    | opening h => cases h <;> exact hm
    | _ => exact hm
  | call h =>
    cases h with
    | recovery => rw [forget_eq] at hm; exact .inl hm
    | _ => exact .inl hm
  | news h =>
    cases h with
    | reply =>
      rcases List.mem_append.mp hm with hm | hm
      · exact .inl hm
      · cases List.mem_singleton.mp hm
        exact .inr rfl
    | failed | ended => rw [forget_eq] at hm; exact .inl hm
    | _ => exact .inl hm

theorem Reaches.mail (h : Reaches s is r log) {k : Claim} {o : Outcome} (hm : (k, o) ∈ r.mail) :
    .reply k o ∈ is := by
  induction h with
  | start => cases hm
  | step h _ ih =>
    rcases (step_event _ _).mail hm with hm | rfl
    · exact List.mem_append_left _ (ih hm)
    · exact List.mem_append_right _ (List.mem_singleton_self _)

theorem mem_of_mail? {k : Claim} {o : Outcome} (h : r.mail? k = some o) : (k, o) ∈ r.mail := by
  obtain ⟨⟨k', o'⟩, he, rfl⟩ := Option.map_eq_some_iff.mp h
  obtain rfl : k' = k := by simpa using List.find?_some he
  exact List.mem_of_find?_eq_some he

theorem mail?_of_takesUp {s : Sending} {k : Claim} {o : Outcome} (h : .answered k o ∈ r.takesUp s) :
    r.mail? k = some o := by
  cases hs : s.stage with
  | awaiting c k' =>
    simp only [takesUp, hs] at h
    split at h
    next hm =>
      obtain ⟨rfl, rfl⟩ := by simpa using h
      exact hm
    · cases h
  | reaching | submit | submitAsking | submitAsked | refreshing =>
    simp only [takesUp, hs] at h
    split at h <;> simp at h
  | _ => simp [takesUp, hs] at h

theorem mail?_of_answered {id : TaskId} {i : Input} {k : Claim} {o : Outcome}
    (h : .answered k o ∈ r.deeds id i) : r.mail? k = some o := by
  unfold deeds at h
  split at h
  next s hj =>
    split at h
    · split at h
      · rcases List.mem_append.mp h with h | h
        · exact mail?_of_takesUp h
        · obtain ⟨x, -, hx⟩ := List.mem_filterMap.mp h
          unfold givesOut at hx
          split at hx <;> cases hx
      · cases h
    · split at h
      · split at h <;> simp at h
      · cases h
    · cases h
  · cases h

/-- A command takes nothing for an answer but a reply to its claim. -/
theorem Reaches.answered (h : Reaches s is r log) (hl : r.AdmitsAll later) {id : TaskId} {k : Claim}
    {o : Outcome} (ha : .answered k o ∈ r.course id later) : .reply k o ∈ is ++ later := by
  induction later generalizing is r log with
  | nil => cases ha
  | cons i later ih =>
    rcases List.mem_append.mp ha with ha | ha
    · exact List.mem_append_left _ (h.mail (mem_of_mail? (mail?_of_answered ha)))
    · simpa using ih (h.step hl.1) hl.2 ha

end Router

/-- Where an attempt is to go. -/
inductive Stop where
  /-- Any pooled connection. -/
  | any
  | node (address : String)
  /-- The connection that is at hand. -/
  | same (address : String) (c : ConnId)

/-- An attempt gets to a connection, with what happens on the way. -/
inductive Stop.Leads : Stop → String → ConnId → List Deed → Prop
  | any {a c} : Leads .any a c []
  | node {a c} : Leads (.node a) a c [.reached a (.ok c)]
  | same {a c} : Leads (.same a c) a c []

/-- The `ASKING` in front of a command, as it is on the wire. -/
def Deed.asking (a : String) (c : ConnId) (q : Claim) : Deed :=
  .sent a c q (Bytes.ofText "*1\r\n$6\r\nASKING\r\n")

theorem Deed.asking_eq (a : String) (c : ConnId) (q : Claim) :
    Deed.asking a c q = .sent a c q Router.askingFrame := by rw [Router.askingFrame_eq, asking]

/-- The frames of an attempt on one connection, after an `ASKING` with claim `q` if there is one. -/
def attempt (frame : Bytes) (a : String) (c : ConnId) (q : Option Claim) (k : Claim) : List Deed :=
  (q.map (Deed.asking a c)).toList ++ [.sent a c k frame]

/-- What can happen to a command that has `n` attempts left after this one and made `i` before it.
This one goes to a stop, and asks first if `asked`. With the outcomes of the attempts, in order. -/
inductive Script (b : Backoff) (frame : Bytes) :
    Nat → Nat → Stop → Bool → List Outcome → List Deed → Prop
  | nowhere {n i asked} : Script b frame n i .any asked [.error .noConnection]
      [.concluded (.error .noConnection)]
  | missed {n i a asked e} (he : e.replyText? = none) : Script b frame n i (.node a) asked [.error e]
      [.reached a (.error e), .concluded (.error e)]
  | refused {n i stop asked a c way part} (hw : Stop.Leads stop a c way)
      (hp : part = [] ∨ asked = true ∧ ∃ q, part = [.asking a c q]) :
      Script b frame n i stop asked [.error .connectionClosed]
        (way ++ part ++ [.refused, .concluded (.error .connectionClosed)])
  | last {n i stop asked a c way q k o} (hw : Stop.Leads stop a c way) (hq : q.isSome = asked)
      (ho : Outcome.redirect? o = none ∨ n = 0) :
      Script b frame n i stop asked [o] (way ++ attempt frame a c q k ++ [.answered k o, .concluded o])
  | moved {n i stop asked a c way q k o slot address os ds} (result : Except ClientError Unit)
      (hw : Stop.Leads stop a c way) (hq : q.isSome = asked)
      (ho : Outcome.redirect? o = some (.moved slot address))
      (next : Script b frame n (i + 1) (.node (resolveTarget address a)) false os ds) :
      Script b frame (n + 1) i stop asked (o :: os)
        (way ++ attempt frame a c q k ++ [.answered k o, .refreshed result] ++ ds)
  | ask {n i stop asked a c way q k o slot address os ds} (hw : Stop.Leads stop a c way)
      (hq : q.isSome = asked) (ho : Outcome.redirect? o = some (.ask slot address))
      (next : Script b frame n (i + 1) (.node (resolveTarget address a)) true os ds) :
      Script b frame (n + 1) i stop asked (o :: os)
        (way ++ attempt frame a c q k ++ [.answered k o] ++ ds)
  | again {n i stop asked a c way q k o os ds} (hw : Stop.Leads stop a c way) (hq : q.isSome = asked)
      (ho : Outcome.redirect? o = some .tryAgain ∨ Outcome.redirect? o = some .clusterDown)
      (next : Script b frame n (i + 1) (.same a c) false os ds) :
      Script b frame (n + 1) i stop asked (o :: os)
        (way ++ attempt frame a c q k ++
          [.answered k o, .rest (min (b.baseMs.toNat * 2 ^ i) b.maxMs.toNat), .rested] ++ ds)

variable {b : Backoff} {frame : Bytes} {n i : Nat} {stop : Stop} {asked : Bool} {os : List Outcome}
  {ds : List Deed}

theorem Outcome.redirect?_eq_none {e : ClientError} (h : e.replyText? = none) :
    Outcome.redirect? (.error e) = none := by simp [Outcome.redirect?, Redirect.ofError?, h]

/-- Every outcome but the last one is a redirect. The last one is none, or it is outcome number
`n + 1`, and the command comes to it. -/
theorem Script.outcomes (h : Script b frame n i stop asked os ds) :
    ∃ os' o ds', os = os' ++ [o] ∧ ds = ds' ++ [.concluded o] ∧
      (∀ x ∈ os', Outcome.redirect? x ≠ none) ∧ os'.length ≤ n ∧
      (Outcome.redirect? o = none ∨ os'.length = n) := by
  induction h with
  | nowhere => exact ⟨[], _, [], rfl, rfl, nofun, Nat.zero_le _, .inl rfl⟩
  | missed he =>
    exact ⟨[], _, [_], rfl, rfl, nofun, Nat.zero_le _, .inl (Outcome.redirect?_eq_none he)⟩
  | refused => exact ⟨[], _, _, rfl, List.append_cons .., nofun, Nat.zero_le _, .inl rfl⟩
  | last _ _ ho =>
    exact ⟨[], _, _, rfl, List.append_cons .., nofun, Nat.zero_le _, ho.imp_right Eq.symm⟩
  | moved _ _ _ ho _ ih | ask _ _ ho _ ih =>
    obtain ⟨os', o, ds', rfl, rfl, hr, hl, hn⟩ := ih
    exact ⟨_ :: os', o, _ ++ ds', rfl, (List.append_assoc ..).symm,
      List.forall_mem_cons.mpr ⟨by simp [ho], hr⟩, Nat.succ_le_succ hl,
      hn.imp_right (congrArg (· + 1))⟩
  | again _ _ ho _ ih =>
    obtain ⟨os', o, ds', rfl, rfl, hr, hl, hn⟩ := ih
    exact ⟨_ :: os', o, _ ++ ds', rfl, (List.append_assoc ..).symm,
      List.forall_mem_cons.mpr ⟨by rcases ho with ho | ho <;> simp [ho], hr⟩, Nat.succ_le_succ hl,
      hn.imp_right (congrArg (· + 1))⟩

end RespClient.Cluster
