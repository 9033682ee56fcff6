import Mathlib
import RespClient.Cluster.Redirect
import RespClient.Proofs.Address

namespace RespClient.Cluster

open Text.Numeral (Unsigned nat?_eq_some)

/-- What stands behind the word of a redirect: the number of a slot and a text with a colon in it. More
words may follow. -/
inductive SlotAndAddress : List String → Slot → String → Prop
  | mk {word address : String} {slot : Slot} (more : List String)
      (number : Unsigned word.toList slot.val) (colon : ':' ∈ address.toList) :
      SlotAndAddress (word :: address :: more) slot address

/-- Where a redirect can lead to: another port of the node that sent it, or an address. -/
inductive IsTarget (address : String) : Prop
  | port {port : List Char} {n : Nat} (text : address.toList = ':' :: port) (number : Unsigned port n)
      (bound : n ≤ 65535)
  | address (h : (Address.parse? address).isSome)

variable {text address origin : String} {slot : Slot} {words : List String}

theorem slotAndAddress?_eq_some :
    slotAndAddress? words = some (slot, address) ↔ SlotAndAddress words slot address := by
  constructor
  · intro h
    unfold slotAndAddress? at h
    split at h
    · split at h
      · cases h
      next n hn =>
        split_ifs at h with hlt hc
        cases h
        exact .mk _ (nat?_eq_some.mp hn).1 (by simpa using hc)
    · cases h
  · rintro ⟨more, hn, hc⟩
    have hlt := slot.isLt
    have hb : slot.val ≤ 65535 := by
      unfold slotCount at hlt
      omega
    rw [slotAndAddress?, nat?_eq_some.mpr ⟨hn, hb⟩]
    simp [hc]

/-- The redirects that name a slot and an address, by the word that their text begins with. -/
inductive Redirect.Names : Redirect → String → Slot → String → Prop
  | moved {slot : Slot} {address : String} : Names (.moved slot address) "MOVED" slot address
  | ask {slot : Slot} {address : String} : Names (.ask slot address) "ASK" slot address

theorem Redirect.Names.ofText?_eq_some {r : Redirect} {word : String}
    (h : Redirect.Names r word slot address) : Redirect.ofText? text = some r ↔
      ∃ rest, Text.words text = word :: rest ∧ SlotAndAddress rest slot address := by
  simp only [← slotAndAddress?_eq_some]
  unfold Redirect.ofText?
  cases Text.words text with
  | nil => simp
  | cons first rest =>
    simp only [List.cons.injEq]
    cases h with
    | moved => split_ifs <;> simp_all
    | ask => split_ifs <;> simp_all

/-- A redirect without a host leads to the node that sent it. -/
theorem resolveTarget_of_port {port : List Char} {host : String} {n m : Nat}
    (ha : address.toList = ':' :: port) (hp : Unsigned port n) (hn : n ≤ 65535)
    (ho : Address.parse? origin = some (host, m)) :
    resolveTarget address origin = Address.join host n := by
  unfold resolveTarget
  split
  next port' he =>
    cases he.symm.trans ha
    rw [nat?_eq_some.mpr ⟨hp, hn⟩, ho]
  next hne => exact absurd ha (hne port)

theorem resolveTarget_eq_self
    (h : ∀ port n, address.toList = ':' :: port → Unsigned port n → ¬n ≤ 65535) (origin : String) :
    resolveTarget address origin = address := by
  unfold resolveTarget
  split
  next port he =>
    split
    next n host m hn ho =>
      obtain ⟨hu, hb⟩ := nat?_eq_some.mp hn
      exact absurd hb (h port n he hu)
    next => rfl
  next => rfl

theorem resolveTarget_of_not_isTarget (h : ¬IsTarget address) (origin : String) :
    resolveTarget address origin = address :=
  resolveTarget_eq_self (fun _ _ ha hu hb => h (.port ha hu hb)) origin

/-- From a node with an address, exactly the targets lead to an address. -/
theorem parse?_resolveTarget_isSome (ho : (Address.parse? origin).isSome) :
    (Address.parse? (resolveTarget address origin)).isSome ↔ IsTarget address := by
  obtain ⟨⟨host, m⟩, ho⟩ := Option.isSome_iff_exists.mp ho
  constructor
  · intro h
    by_contra hn
    rw [resolveTarget_of_not_isTarget hn] at h
    exact hn (.address h)
  · intro h
    by_cases hp : ∃ port n, address.toList = ':' :: port ∧ Unsigned port n ∧ n ≤ 65535
    · obtain ⟨port, n, ha, hu, hb⟩ := hp
      rw [resolveTarget_of_port ha hu hb ho, Address.parse?_join (Address.isHost_of_parse? ho).1 hb]
      rfl
    · cases h with
      | port ha hu hb => exact absurd ⟨_, _, ha, hu, hb⟩ hp
      | address h =>
        rwa [resolveTarget_eq_self fun port n ha hu hb => hp ⟨port, n, ha, hu, hb⟩]

/-- Hosts and ports survive being joined and taken apart. What an address is taken apart into is joined
to an address with the same host and port: its usual form, which it shares with just the addresses of
that host and port, and which is its own usual form. A redirect to a port leads to that port of the
host that sent it. -/
theorem split_undoes_join :
    (∀ host (port : UInt16), Address.IsHost host →
      Address.split (Address.join host port.toNat) = .ok (host, port.toNat)) ∧
    (∀ address host n, Address.split address = .ok (host, n) →
      Address.IsHost host ∧ n ≤ 65535 ∧ Address.usual? address = some (Address.join host n) ∧
        Address.split (Address.join host n) = .ok (host, n)) ∧
    (∀ address usual, Address.usual? address = some usual → Address.usual? usual = some usual) ∧
    (∀ address address' parts parts', Address.split address = .ok parts →
      Address.split address' = .ok parts' →
      (Address.usual? address = Address.usual? address' ↔ parts = parts')) ∧
    (∀ origin host m address digits (port : UInt16), Address.split origin = .ok (host, m) →
      address.toList = ':' :: digits → Unsigned digits port.toNat →
      Address.split (resolveTarget address origin) = .ok (host, port.toNat)) := by
  have hport (port : UInt16) : port.toNat ≤ 65535 := Nat.le_of_lt_succ port.toNat_lt
  refine ⟨?_, ?_, fun _ _ => Address.usual?_usual, ?_, ?_⟩
  · intro host port hh
    exact Address.split_eq_ok.mpr (Address.parse?_join hh (hport port))
  · intro address host n h
    have hp := Address.split_eq_ok.mp h
    obtain ⟨hh, hn⟩ := Address.isHost_of_parse? hp
    exact ⟨hh, hn, Address.usual?_eq_some.mpr ⟨host, n, hp, rfl⟩,
      Address.split_eq_ok.mpr (Address.parse?_join hh hn)⟩
  · intro address address' parts parts' h h'
    rw [Address.usual?_inj, Address.split_eq_ok.mp h, Address.split_eq_ok.mp h', Option.some_inj]
  · intro origin host m address digits port ho ha hu
    have ho' := Address.split_eq_ok.mp ho
    have hh : Address.IsHost host := (Address.isHost_of_parse? ho').1
    rw [resolveTarget_of_port ha hu (hport port) ho']
    exact Address.split_eq_ok.mpr (Address.parse?_join hh (hport port))

/-- An address in two pairs of brackets, with a plus before its port, and one without brackets have the
same usual form. -/
theorem split_undoes_join_brackets :
    Address.split (Address.join "fe80::1" 7000) = .ok ("fe80::1", 7000) ∧
    Address.usual? "[[fe80::1]]:+7000" = Address.usual? "fe80::1:07000" ∧
    Address.usual? "[fe80::1]:7000" = some "[fe80::1]:7000" ∧
    Address.split (resolveTarget ":7002" "[fe80::1]:7000") = .ok ("fe80::1", 7002) := by
  obtain ⟨joined, taken, usual, shared, port⟩ := split_undoes_join
  have hhost : Address.IsHost "fe80::1" := ⟨by decide, by decide, by decide⟩
  have hsplit (address : String) (h : Address.parse? address = some ("fe80::1", 7000)) :
      Address.split address = .ok ("fe80::1", 7000) := Address.split_eq_ok.mpr h
  have hdouble := hsplit "[[fe80::1]]:+7000" (by decide +kernel)
  have hbare := hsplit "fe80::1:07000" (by decide +kernel)
  have hread : Text.Numeral.nat? 65535 ['7', '0', '0', '2'] = some (7002 : UInt16).toNat := by
    decide +kernel
  have hform : Address.join "fe80::1" 7000 = "[fe80::1]:7000" := by decide +kernel
  refine ⟨joined "fe80::1" 7000 hhost, (shared _ _ _ _ hdouble hbare).mpr rfl, ?_, ?_⟩
  · rw [← hform]
    exact usual _ _ (taken _ _ _ hdouble).2.2.1
  · exact port _ _ _ _ _ 7002 (hsplit _ (by decide +kernel)) (by decide) (nat?_eq_some.mp hread).1

end RespClient.Cluster
