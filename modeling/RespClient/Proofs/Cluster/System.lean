import RespClient.Proofs.Cluster.Router.Liveness
import RespClient.Proofs.Cluster.Router.Submissions
import RespClient.Proofs.Connection.Wire

namespace RespClient.Cluster

open Connection (commands completions tickets)
open Connection.Worker (Incident Journal Move journal)
open Router (on on_append mem_on)

structure System where
  router : Router
  /-- What has happened to the worker of each connection. -/
  lines : ConnId → List (Incident Claim) := fun _ => []

inductive Happening where
  /-- A caller, a task or an attempt to connect goes on. -/
  | input (i : Input)
  /-- The worker of a connection makes a move. -/
  | move (c : ConnId) (m : Move Claim)
  /-- The task that waits for outcome number `n` on a connection gets it. -/
  | deliver (c : ConnId) (n : Nat)
  /-- A handler of a connection runs, by effect number `n`. -/
  | handle (c : ConnId) (n : Nat)

def Input.isNews : Input → Bool
  | reply _ _ | down _ | failed _ _ | ended _ => true
  | _ => false

namespace System

def record (lines : ConnId → List (Incident Claim)) (c : ConnId) (m : Move Claim) :
    ConnId → List (Incident Claim) := Function.update lines c (lines c ++ [.move m])

/-- What an action of the router is for the workers. -/
def carry (lines : ConnId → List (Incident Claim)) : Action → ConnId → List (Incident Claim)
  | .submit c k frame => record lines c (.submit (.command k frame))
  | .close c => record lines c (.submit .close)
  | _ => lines

/-- The journal of a connection. -/
def line (S : System) (c : ConnId) : Journal Claim := journal (S.lines c)

def moved (S : System) : Happening → ConnId → List (Incident Claim)
  | .move c m => record S.lines c m
  | _ => S.lines

def news? (S : System) : Happening → Option Input
  | .input i => some i
  | .move c m =>
    if ((S.line c).step (.move m)).worker.connection.ended && !(S.line c).worker.connection.ended then
      some (.down c)
    else none
  | .deliver c n => (completions (S.line c).effects)[n]?.map fun x => .reply x.1 x.2
  | .handle c n =>
    match (S.line c).effects[n]? with
    | some (.failed e) => some (.failed c e)
    | some .finished => some (.ended c)
    | _ => none

def step (S : System) (x : Happening) : System × List Action :=
  let after := S.router.run (S.news? x).toList
  ({ router := after.1, lines := after.2.foldl carry (S.moved x) }, after.2)

def run (S : System) : List Happening → System × List Action
  | [] => (S, [])
  | x :: xs =>
    let (S, actions) := S.step x
    let (S, later) := run S xs
    (S, actions ++ later)

/-- What may happen: news of a connection come from its worker alone, and requests to it come from the
router alone. -/
def Admits (S : System) : Happening → Prop
  | .input i => i.isNews = false ∧ S.router.Admits i
  | .move _ m => m.request?.isNone
  | .deliver _ _ | .handle _ _ => True

instance decidableAdmits (S : System) : (x : Happening) → Decidable (S.Admits x)
  | .input i => inferInstanceAs (Decidable (i.isNews = false ∧ S.router.Admits i))
  | .move _ m => inferInstanceAs (Decidable (m.request?.isNone = true))
  | .deliver _ _ | .handle _ _ => isTrue trivial

/-- A system whose router has settings `s` gets to `S`; on the way `is` came in to the router, and its
actions were `log`. -/
inductive Reaches (s : ClusterSettings) : List Input → System → List Action → Prop
  | start : Reaches s [] { router := { settings := s } } []
  | step {is S log x} (h : Reaches s is S log) (hx : S.Admits x) :
      Reaches s (is ++ (S.news? x).toList) (S.step x).1 (log ++ (S.step x).2)

def AdmitsAll (S : System) : List Happening → Prop
  | [] => True
  | x :: xs => S.Admits x ∧ (S.step x).1.AdmitsAll xs

instance decidableAdmitsAll : (S : System) → (xs : List Happening) → Decidable (S.AdmitsAll xs)
  | _, [] => isTrue trivial
  | S, x :: xs =>
    have := decidableAdmitsAll (S.step x).1 xs
    inferInstanceAs (Decidable (S.Admits x ∧ (S.step x).1.AdmitsAll xs))

def inputs (S : System) : List Happening → List Input
  | [] => []
  | x :: xs => (S.news? x).toList ++ (S.step x).1.inputs xs

variable {s : ClusterSettings} {is : List Input} {S : System} {log acts : List Action} {c : ConnId}
  {k : Claim} {o : Outcome} {x : Submission}

theorem Reaches.run (h : Reaches s is S log) (xs : List Happening) (hx : S.AdmitsAll xs) :
    Reaches s (is ++ S.inputs xs) (S.run xs).1 (log ++ (S.run xs).2) := by
  induction xs generalizing is S log with
  | nil => simpa [System.run, inputs] using h
  | cons x xs ih =>
    have := ih (h.step hx.1) hx.2
    simpa [System.run, inputs, List.append_assoc] using this

/-- A worker got requests and did nothing else: commands for `frames` are among them, and what was
completed before still is. -/
structure Carried (old new : List (Incident Claim)) (frames : List (Claim × Bytes)) : Prop where
  commands : commands (journal new).requests = commands (journal old).requests ++ frames
  ended : (journal new).worker.connection.ended = (journal old).worker.connection.ended
  completions : ∀ x ∈ completions (journal old).effects, x ∈ completions (journal new).effects

theorem Carried.refl (old : List (Incident Claim)) : Carried old old [] :=
  ⟨(List.append_nil _).symm, rfl, fun _ h => h⟩

theorem Carried.trans {old mid new : List (Incident Claim)} {frames more : List (Claim × Bytes)}
    (h : Carried old mid frames) (h' : Carried mid new more) : Carried old new (frames ++ more) :=
  ⟨by rw [h'.commands, h.commands, List.append_assoc], h'.ended.trans h.ended,
    fun x hx => h'.completions x (h.completions x hx)⟩

theorem completions_move (is : List (Incident Claim)) (m : Move Claim) {x : Claim × Outcome}
    (hx : x ∈ completions (journal is).effects) :
    x ∈ completions (journal (is ++ [.move m])).effects := by
  rw [Connection.Worker.journal_concat]
  change x ∈ completions ((journal is).effects ++ _)
  rw [Connection.completions_append]
  exact List.mem_append_left _ hx

theorem carried_submit (is : List (Incident Claim)) (r : Request Claim) :
    Carried is (is ++ [.move (.submit r)]) (commands [r]) where
  commands := by
    rw [Connection.Worker.journal_concat, ← Connection.commands_append]
    rfl
  ended := by
    rw [Connection.Worker.journal_concat]
    change ((journal is).worker.submit r).1.connection.ended = _
    unfold Connection.Worker.submit
    split <;> rfl
  completions _ hx := completions_move is _ hx

def framesTo (c : ConnId) (acts : List Action) : List (Claim × Bytes) :=
  ((acts.filterMap Action.sent?).filter fun x => x.1 == c).map (·.2)

theorem framesTo_append (c : ConnId) (acts more : List Action) :
    framesTo c (acts ++ more) = framesTo c acts ++ framesTo c more := by
  simp [framesTo]

theorem carried_record (lines : ConnId → List (Incident Claim)) (c c' : ConnId) (r : Request Claim) :
    Carried (lines c') (record lines c (.submit r) c') (if c = c' then commands [r] else []) := by
  by_cases h : c = c'
  · subst h
    rw [if_pos rfl, record, Function.update_self]
    exact carried_submit _ r
  · rw [if_neg h, record, Function.update_of_ne (Ne.symm h)]
    exact .refl _

theorem carried_action (lines : ConnId → List (Incident Claim)) (a : Action) (c : ConnId) :
    Carried (lines c) (carry lines a c) (framesTo c [a]) := by
  cases a with
  | submit c' k frame =>
    have h := carried_record lines c' c (.command k frame)
    have hframes : framesTo c [.submit c' k frame] =
        if c' = c then commands [.command k frame] else [] := by
      by_cases hc : c' = c <;> simp [framesTo, Action.sent?, hc, commands, Request.command?]
    rwa [hframes]
  | close c' =>
    have h := carried_record lines c' c .close
    rwa [show (if c' = c then commands [Request.close] else []) = framesTo c [.close c'] by
      split <;> rfl] at h
  | _ => exact .refl _

theorem carried_foldl (lines : ConnId → List (Incident Claim)) (acts : List Action) (c : ConnId) :
    Carried (lines c) (acts.foldl carry lines c) (framesTo c acts) := by
  induction acts generalizing lines with
  | nil => exact .refl _
  | cons a acts ih =>
    rw [← List.singleton_append, framesTo_append]
    exact (carried_action lines a c).trans (ih _)

def request (x : Submission) : Claim × Bytes := (x.claim, x.frame)

/-- Router and workers agree on what was submitted, on what came of it, and on who is down. -/
structure Sound (s : ClusterSettings) (is : List Input) (S : System) (log : List Action) : Prop where
  router : Router.Reaches s is S.router log
  frames : ∀ c, commands (S.line c).requests = (on c (Router.submitted s is)).map request
  down : ∀ c, (S.line c).worker.connection.ended = true → c ∈ S.router.down
  replies : ∀ k o, .reply k o ∈ is → ∃ c, (k, o) ∈ completions (S.line c).effects

theorem Sound.submission_of_completion (h : Sound s is S log)
    (hk : (k, o) ∈ completions (S.line c).effects) :
    ∃ x ∈ Router.submitted s is, x.conn = c ∧ x.claim = k := by
  have hmem : k ∈ tickets (S.line c).requests :=
    (Connection.Worker.balance_journal (S.lines c)).mem_iff.mpr
      (List.mem_append_left _ (List.mem_map_of_mem (f := Prod.fst) hk))
  rw [tickets, h.frames c, List.map_map] at hmem
  obtain ⟨x, hx, rfl⟩ := List.mem_map.mp hmem
  exact ⟨x, (mem_on.mp hx).1, (mem_on.mp hx).2, rfl⟩

theorem Sound.admits (h : Sound s is S log) {x : Happening} (hx : S.Admits x) :
    S.router.AdmitsAll (S.news? x).toList := by
  cases x with
  | input i =>
    exact ⟨hx.2, trivial⟩
  | move c m =>
    simp only [news?]
    split
    · exact ⟨trivial, trivial⟩
    · trivial
  | deliver c n =>
    simp only [news?]
    cases hn : (completions (S.line c).effects)[n]? with
    | none => trivial
    | some y =>
      obtain ⟨x, hx, -, hk⟩ := h.submission_of_completion (List.mem_of_getElem? hn)
      have hlt : y.1 < S.router.next := hk ▸ (h.router.claims.2 x hx).1
      exact ⟨hlt, trivial⟩
  | handle c n =>
    simp only [news?]
    split <;> first | exact ⟨trivial, trivial⟩ | trivial

/-- What was completed stays completed, whatever happens to a worker. -/
theorem completions_moved (S : System) (x : Happening) (c : ConnId) {y : Claim × Outcome}
    (hy : y ∈ completions (S.line c).effects) : y ∈ completions (journal (S.moved x c)).effects := by
  cases x with
  | move c' m =>
    by_cases hc : c = c'
    · subst hc
      simp only [moved, record, Function.update_self]
      exact completions_move _ m hy
    · simp only [moved, record, Function.update_of_ne hc]
      exact hy
  | _ => exact hy

theorem requests_moved {x : Happening} (hx : S.Admits x) (c : ConnId) :
    (journal (S.moved x c)).requests = (S.line c).requests := by
  cases x with
  | move c' m =>
    by_cases hc : c = c'
    · subst hc
      simp only [moved, record, Function.update_self, Connection.Worker.journal_concat]
      change (S.line c).requests ++ m.request?.toList = _
      rw [Option.isNone_iff_eq_none.mp hx, Option.toList_none, List.append_nil]
    · simp only [moved, record, Function.update_of_ne hc]
      rfl
  | _ => rfl

theorem framesTo_step {r : Router} (hf : Router.Forest r) (i : Input) (c : ConnId) :
    framesTo c (r.step i).2 = (on c (r.submits? i).toList).map request := by
  rw [framesTo, Router.step_sent hf, List.filter_map, List.map_map]
  rfl

theorem Sound.step (h : Sound s is S log) {x : Happening} (hx : S.Admits x) :
    Sound s (is ++ (S.news? x).toList) (S.step x).1 (log ++ (S.step x).2) := by
  have hrun := h.router.run _ (h.admits hx)
  have carried (c : ConnId) : Carried (S.moved x c) ((S.step x).1.lines c)
      (framesTo c (S.router.run (S.news? x).toList).2) := carried_foldl _ _ c
  refine ⟨hrun, fun c => ?_, fun c hended => ?_, fun k o hk => ?_⟩
  · rw [line, (carried c).commands, requests_moved hx, h.frames]
    cases hn : S.news? x with
    | none => simp [Router.run, framesTo]
    | some i =>
      simp only [Option.toList_some, Router.run, List.append_nil]
      rw [h.router.submitted_concat, on_append, List.map_append, framesTo_step h.router.forest]
  · rw [line, (carried c).ended] at hended
    have known (hc : c ∈ S.router.down) : c ∈ (S.step x).1.router.down :=
      h.router.down_run (h.admits hx) hc
    cases x with
    | move c' m =>
      by_cases hc : c = c'
      · subst hc
        simp only [moved, record, Function.update_self, Connection.Worker.journal_concat] at hended
        by_cases hbefore : (S.line c).worker.connection.ended = true
        · exact known (h.down c hbefore)
        · -- The worker has just shown its connection as closed.
          have hnews : S.news? (.move c m) = some (.down c) := by
            simp only [news?]
            rw [if_pos]
            rw [(Bool.not_eq_true _).mp hbefore, line, hended]
            rfl
          simp only [System.step, hnews, Option.toList_some, Router.run]
          exact List.mem_append_right _ (List.mem_singleton_self c)
      · simp only [moved, record, Function.update_of_ne hc] at hended
        exact known (h.down c hended)
    | _ => exact known (h.down c hended)
  · have kept {c : ConnId} (hc : (k, o) ∈ completions (S.line c).effects) :
        ∃ c, (k, o) ∈ completions ((S.step x).1.line c).effects :=
      ⟨c, (carried c).completions _ (completions_moved S x c hc)⟩
    rcases List.mem_append.mp hk with hk | hk
    · obtain ⟨c, hc⟩ := h.replies k o hk
      exact kept hc
    · cases x with
      | input i =>
        cases List.mem_singleton.mp hk
        cases hx.1
      | move c m =>
        simp only [news?] at hk
        split at hk <;> simp at hk
      | deliver c n =>
        simp only [news?, Option.toList_map, List.mem_map, Option.mem_toList] at hk
        obtain ⟨⟨k', o'⟩, hn, he⟩ := hk
        cases he
        exact kept (List.mem_of_getElem? hn)
      | handle c n =>
        simp only [news?] at hk
        split at hk <;> simp at hk

theorem Reaches.sound (h : Reaches s is S log) : Sound s is S log := by
  induction h with
  | start =>
    exact ⟨.start, fun _ => rfl, nofun, nofun⟩
  | step _ hx ih => exact ih.step hx

/-- A reply that came in is an outcome on the connection that its claim went to. -/
theorem Sound.completed (h : Sound s is S log) (hx : x ∈ Router.submitted s is)
    (hk : .reply x.claim o ∈ is) : (x.claim, o) ∈ completions (S.line x.conn).effects := by
  obtain ⟨c, hc⟩ := h.replies _ _ hk
  obtain ⟨y, hy, rfl, hyk⟩ := h.submission_of_completion hc
  rwa [h.router.eq_of_claim hy hx hyk] at hc

/-- What a connection has written are the first frames that were submitted on it. -/
theorem Sound.written (h : Sound s is S log) (c : ConnId) :
    (S.line c).written <+: (on c (Router.submitted s is)).map request :=
  h.frames c ▸ Connection.Worker.written_journal (S.lines c)

/-- A claim that was refused has a connection that is down. -/
theorem Sound.down_of_refused (h : Sound s is S log) (hx : x ∈ Router.submitted s is)
    (hk : .reply x.claim (.error .connectionClosed) ∈ is) : x.conn ∈ S.router.down :=
  h.down _ (Connection.Worker.ended_of_refused (h.completed hx hk))

end System

end RespClient.Cluster
