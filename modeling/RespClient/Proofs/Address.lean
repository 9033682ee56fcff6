import Mathlib
import RespClient.Address
import RespClient.Proofs.Text.Numeral

namespace RespClient.Address

open Text.Numeral (Unsigned nat?_eq_some unsigned_repr)

/-- A host as it is when no brackets are around it. -/
structure IsHost (host : String) : Prop where
  filled : host.toList ≠ []
  first : host.toList.head? ≠ some '['
  last : host.toList.getLast? ≠ some ']'

variable {cs host port : List Char} {address h : String} {n : Nat}

theorem lastColon?_eq_none (h : ':' ∉ cs) : lastColon? cs = none := by
  induction cs with
  | nil => rfl
  | cons c cs ih =>
    obtain ⟨hc, hcs⟩ := not_or.mp fun hm => h (List.mem_cons.mpr hm)
    rw [lastColon?, ih hcs]
    exact if_neg (Ne.symm hc)

theorem lastColon?_append (host : List Char) (h : ':' ∉ port) :
    lastColon? (host ++ ':' :: port) = some (host, port) := by
  induction host with
  | nil =>
    rw [List.nil_append, lastColon?, lastColon?_eq_none h]
    rfl
  | cons c host ih => rw [List.cons_append, lastColon?, ih]

theorem exists_lastColon (h : ':' ∈ cs) :
    ∃ host port, cs = host ++ ':' :: port ∧ ':' ∉ port := by
  induction cs with
  | nil => cases h
  | cons c cs ih =>
    by_cases hcs : ':' ∈ cs
    · obtain ⟨host, port, rfl, hp⟩ := ih hcs
      exact ⟨c :: host, port, rfl, hp⟩
    · obtain rfl | hm := List.mem_cons.mp h
      · exact ⟨[], cs, rfl, hcs⟩
      · exact absurd hm hcs

theorem lastColon?_eq_some :
    lastColon? cs = some (host, port) ↔ cs = host ++ ':' :: port ∧ ':' ∉ port := by
  refine ⟨fun h => ?_, fun ⟨he, hp⟩ => he ▸ lastColon?_append host hp⟩
  by_cases hc : ':' ∈ cs
  · obtain ⟨host', port', rfl, hp⟩ := exists_lastColon hc
    rw [lastColon?_append host' hp] at h
    cases h
    exact ⟨rfl, hp⟩
  · rw [lastColon?_eq_none hc] at h
    cases h

theorem unbracket_eq (cs : List Char) :
    unbracket cs = (cs.dropWhile (· == '[')).rdropWhile (· == ']') := rfl

theorem dropWhile_eq_self (c : Char) (h : cs.head? ≠ some c) : cs.dropWhile (· == c) = cs := by
  cases cs with
  | nil => rfl
  | cons d cs => exact List.dropWhile_cons_of_neg (by simpa using h)

theorem rdropWhile_eq_self (c : Char) (h : cs.getLast? ≠ some c) : cs.rdropWhile (· == c) = cs := by
  rw [List.rdropWhile_eq_self_iff]
  intro hne
  rw [List.getLast?_eq_some_getLast hne] at h
  simpa using h

theorem IsHost.unbracket {host : String} (h : IsHost host) : unbracket host.toList = host.toList := by
  rw [unbracket_eq, dropWhile_eq_self _ h.first, rdropWhile_eq_self _ h.last]

theorem IsHost.unbracket_brackets {host : String} (h : IsHost host) :
    Address.unbracket ('[' :: (host.toList ++ [']'])) = host.toList := by
  have hfirst : (host.toList ++ [']']).head? ≠ some '[' := by
    rw [List.head?_append_of_ne_nil _ h.filled]
    exact h.first
  rw [unbracket_eq, List.dropWhile_cons_of_pos (by decide), dropWhile_eq_self _ hfirst,
    List.rdropWhile_concat_pos _ _ _ (by decide), rdropWhile_eq_self _ h.last]

theorem isHost_unbracket (h : Address.unbracket cs ≠ []) :
    IsHost (String.ofList (Address.unbracket cs)) := by
  refine ⟨by rwa [String.toList_ofList], ?_, ?_⟩ <;> rw [String.toList_ofList]
  · obtain ⟨rest, hrest⟩ := List.rdropWhile_prefix (· == ']') (cs.dropWhile (· == '['))
    rw [unbracket_eq] at h ⊢
    have hd := List.head?_dropWhile_not (· == '[') cs
    rw [← hrest, List.head?_append_of_ne_nil _ h] at hd
    intro hc
    rw [hc] at hd
    cases hd
  · rw [unbracket_eq] at h ⊢
    have hl := List.rdropWhile_last_not (· == ']') _ h
    rw [List.getLast?_eq_some_getLast h]
    simpa using hl

theorem parse?_eq_some : parse? address = some (h, n) ↔
    ∃ host port, address.toList = host ++ ':' :: port ∧ ':' ∉ port ∧ h.toList = unbracket host ∧
      h.toList ≠ [] ∧ Unsigned port n ∧ n ≤ 65535 := by
  unfold parse?
  cases hl : lastColon? address.toList with
  | none =>
    refine ⟨nofun, fun ⟨host, port, he, hp, _⟩ => ?_⟩
    cases (lastColon?_eq_some.mpr ⟨he, hp⟩).symm.trans hl
  | some parts =>
    obtain ⟨host, port⟩ := parts
    obtain ⟨he, hp⟩ := lastColon?_eq_some.mp hl
    simp only
    constructor
    · intro h'
      split at h'
      · cases h'
      next hne =>
        obtain ⟨m, hm, he'⟩ := Option.map_eq_some_iff.mp h'
        cases he'
        rw [String.toList_ofList]
        exact ⟨host, port, he, hp, rfl, hne, nat?_eq_some.mp hm⟩
    · rintro ⟨host', port', he', hp', hh, hne, hn⟩
      cases (lastColon?_eq_some.mpr ⟨he', hp'⟩).symm.trans hl
      split
      next hnil => exact absurd (hh.trans hnil) hne
      next => rw [← hh, nat?_eq_some.mpr hn, Option.map_some, String.ofList_toList]

theorem isHost_of_parse? (h' : parse? address = some (h, n)) : IsHost h ∧ n ≤ 65535 := by
  obtain ⟨host, port, -, -, hh, hne, -, hn⟩ := parse?_eq_some.mp h'
  rw [hh] at hne
  exact ⟨by rw [← String.ofList_toList (s := h), hh]; exact isHost_unbracket hne, hn⟩

theorem colon_not_mem_repr (n : Nat) : ':' ∉ n.repr.toList := fun hm =>
  absurd ((Text.Numeral.isDigits_repr n).digit _ hm) (by decide)

theorem parse?_join (hh : IsHost h) (hn : n ≤ 65535) : parse? (join h n) = some (h, n) := by
  rw [parse?_eq_some]
  have hport := And.intro (unsigned_repr n) hn
  unfold join
  split
  · exact ⟨'[' :: (h.toList ++ [']']), n.repr.toList, by simp, colon_not_mem_repr n,
      hh.unbracket_brackets.symm, hh.filled, hport⟩
  · exact ⟨h.toList, n.repr.toList, by simp, colon_not_mem_repr n, hh.unbracket.symm, hh.filled,
      hport⟩

theorem split_eq_ok : split address = .ok (h, n) ↔ parse? address = some (h, n) := by
  unfold split
  cases parse? address with
  | none => simp
  | some parts => simp

/-- An address as its host and its port make it up again. -/
def usual? (address : String) : Option String :=
  (parse? address).map fun parts => join parts.1 parts.2

theorem usual?_eq_some {usual : String} :
    usual? address = some usual ↔ ∃ h n, parse? address = some (h, n) ∧ join h n = usual := by
  rw [usual?, Option.map_eq_some_iff]
  exact Prod.exists

theorem parse?_usual {usual : String} (hu : usual? address = some usual) :
    parse? usual = parse? address := by
  obtain ⟨h, n, hp, rfl⟩ := usual?_eq_some.mp hu
  obtain ⟨hh, hn⟩ := isHost_of_parse? hp
  rw [parse?_join hh hn, hp]

theorem usual?_usual {usual : String} (hu : usual? address = some usual) :
    usual? usual = some usual := by
  rw [usual?, parse?_usual hu, ← usual?, hu]

/-- Addresses have the same usual form exactly if they have the same host and port. -/
theorem usual?_inj {address' : String} :
    usual? address = usual? address' ↔ parse? address = parse? address' := by
  constructor
  · intro he
    cases hu : usual? address with
    | none =>
      rw [hu] at he
      rw [Option.map_eq_none_iff.mp hu, Option.map_eq_none_iff.mp he.symm]
    | some usual =>
      rw [hu] at he
      rw [← parse?_usual hu, parse?_usual he.symm]
  · intro he
    rw [usual?, usual?, he]

end RespClient.Address
