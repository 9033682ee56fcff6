import RespClient.Cluster.Router.Tasks

namespace RespClient.Cluster

variable {policy : ReplicaPolicy} {readOnly : Bool} {members : Nat}

/-- Member `k` of a shard may serve a command: a replica only if the command only reads, and then as
the policy has it. -/
def Eligible (policy : ReplicaPolicy) (readOnly : Bool) (members k : Nat) : Prop :=
  k < members ∧
    match policy with
    | .never => k = 0
    | .always => if readOnly = true ∧ 2 ≤ members then 1 ≤ k else k = 0
    | .share => readOnly = true ∨ k = 0

theorem selectNode_master (h : ¬ (readOnly = true ∧ 2 ≤ members)) (choice : Nat) :
    selectNode policy readOnly members choice = 0 := by
  unfold selectNode
  refine if_pos ?_
  cases readOnly with
  | false => rfl
  | true =>
    have hlt : members < 2 := Nat.not_le.mp fun hm => h ⟨rfl, hm⟩
    rw [decide_eq_true hlt]
    rfl

theorem selectNode_read (h : 2 ≤ members) (choice : Nat) :
    selectNode policy true members choice =
      match policy with
      | .never => 0
      | .always => 1 + choice % (members - 1)
      | .share => choice % members := by
  have hguard : (!true || decide (members < 2)) = false := decide_eq_false (Nat.not_lt.mpr h)
  unfold selectNode
  rw [hguard]
  rfl

/-- What can be selected is what may serve the command. -/
theorem eligible_iff (h : 0 < members) (policy : ReplicaPolicy) (readOnly : Bool) (k : Nat) :
    Eligible policy readOnly members k ↔ ∃ choice, selectNode policy readOnly members choice = k := by
  unfold Eligible
  by_cases hr : readOnly = true ∧ 2 ≤ members
  · obtain ⟨rfl, hm⟩ := hr
    simp only [selectNode_read hm]
    cases policy with
    | never =>
      constructor
      · intro ⟨_, hk⟩
        exact ⟨0, hk.symm⟩
      · intro ⟨_, hk⟩
        exact ⟨hk ▸ h, hk.symm⟩
    | always =>
      simp only [true_and, if_pos hm]
      constructor
      · intro ⟨hlt, hk⟩
        have hmod : (k - 1) % (members - 1) = k - 1 := Nat.mod_eq_of_lt (by omega)
        exact ⟨k - 1, by omega⟩
      · intro ⟨choice, hk⟩
        have hmod : choice % (members - 1) < members - 1 := Nat.mod_lt _ (by omega)
        omega
    | share =>
      constructor
      · intro ⟨hlt, _⟩
        exact ⟨k, Nat.mod_eq_of_lt hlt⟩
      · intro ⟨choice, hk⟩
        exact ⟨hk ▸ Nat.mod_lt _ h, .inl trivial⟩
  · simp only [selectNode_master hr]
    constructor
    · intro ⟨hlt, hk⟩
      refine ⟨0, ?_⟩
      cases policy with
      | never => exact hk.symm
      | always =>
        rw [if_neg hr] at hk
        exact hk.symm
      | share =>
        rcases hk with hread | hk
        · rw [hread] at hr
          simp only [true_and, Nat.not_le] at hr
          omega
        · exact hk.symm
    · intro ⟨_, hk⟩
      refine ⟨hk ▸ h, ?_⟩
      cases policy with
      | never => exact hk.symm
      | always =>
        rw [if_neg hr]
        exact hk.symm
      | share => exact .inr hk.symm

theorem Eligible.eq_zero {k : Nat} (h : Eligible policy false members k) : k = 0 := by
  obtain ⟨-, h⟩ := h
  cases policy with
  | never => exact h
  | always => simpa using h
  | share => simpa using h

/-- What is selected is a member of the shard. -/
theorem selectNode_lt (h : 0 < members) (policy : ReplicaPolicy) (readOnly : Bool) (choice : Nat) :
    selectNode policy readOnly members choice < members :=
  ((eligible_iff h policy readOnly _).mpr ⟨choice, rfl⟩).1

end RespClient.Cluster
