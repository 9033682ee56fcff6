import RespClient.Text.NameTable

namespace RespClient.Text

variable {names : Array String} {name a b : String} {i j base size : Nat}

theorem precedes_iff : precedes a b = true ↔ a.toList < b.toList := List.lex_eq_true_iff_lt

theorem not_precedes_self (a : String) : ¬precedes a a := by
  rw [precedes_iff]
  exact List.lt_irrefl _

theorem precedes_asymm (h : precedes a b) : ¬precedes b a := by
  rw [precedes_iff] at h ⊢
  exact List.lt_asymm h

theorem precedes_of_lt (h : names.toList.Pairwise fun a b => precedes a b)
    (hi : names[i]? = some a) (hj : names[j]? = some b) (hij : i < j) : precedes a b := by
  rw [← Array.getElem?_toList, List.getElem?_eq_some_iff] at hi hj
  obtain ⟨hi, rfl⟩ := hi
  obtain ⟨hj, rfl⟩ := hj
  exact List.pairwise_iff_getElem.mp h i j hi hj hij

/-- A name that comes before another one in the alphabet stands before it in the table. -/
theorem lt_of_precedes (h : names.toList.Pairwise fun a b => precedes a b)
    (hi : names[i]? = some a) (hj : names[j]? = some b) (hab : precedes a b) : i < j := by
  apply Nat.lt_of_not_le
  intro hji
  rcases Nat.lt_or_eq_of_le hji with hji | rfl
  · exact precedes_asymm hab (precedes_of_lt h hj hi hji)
  · rw [hj, Option.some_inj] at hi
    exact not_precedes_self a (hi ▸ hab)

theorem le_of_not_precedes (h : names.toList.Pairwise fun a b => precedes a b)
    (hi : names[i]? = some a) (hj : names[j]? = some b) (hab : ¬precedes a b) : j ≤ i := by
  apply Nat.le_of_not_lt
  intro hij
  exact hab (precedes_of_lt h hi hj hij)

/-- Halving finds a name if and only if it is in the range. -/
theorem bisect_iff (h : names.toList.Pairwise fun a b => precedes a b) (hsize : 0 < size)
    (hbound : base + size ≤ names.size) :
    bisect names name base size = true ↔
      ∃ i, base ≤ i ∧ i < base + size ∧ names[i]? = some name := by
  fun_induction bisect names name base size with
  | case1 base size hle =>
    rw [decide_eq_true_iff]
    constructor
    · intro hn
      exact ⟨base, by omega, by omega, hn⟩
    · rintro ⟨i, hl, hu, hn⟩
      obtain rfl : i = base := by omega
      exact hn
  | case2 base size hgt middle base' ih =>
    have hm : names[middle]? = some names[middle] := Array.getElem?_eq_getElem (by omega)
    -- In both cases the name cannot stand in the part that is left out.
    by_cases hbefore : precedes name names[middle]
    · have hbase : base' = base := if_pos (by simp [hm, hbefore])
      rw [hbase] at ih ⊢
      rw [ih (by omega) (by omega)]
      constructor
      · rintro ⟨i, hl, hu, hn⟩
        exact ⟨i, hl, by omega, hn⟩
      · rintro ⟨i, hl, hu, hn⟩
        have hlt : i < middle := lt_of_precedes h hn hm hbefore
        exact ⟨i, hl, by omega, hn⟩
    · have hbase : base' = middle := if_neg (by simp [hm, hbefore])
      rw [hbase] at ih ⊢
      rw [ih (by omega) (by omega)]
      constructor
      · rintro ⟨i, hl, hu, hn⟩
        exact ⟨i, by omega, by omega, hn⟩
      · rintro ⟨i, hl, hu, hn⟩
        have hle : middle ≤ i := le_of_not_precedes h hn hm hbefore
        exact ⟨i, hle, by omega, hn⟩

/-- Looking up a name is membership in the set of names. -/
theorem NameTable.contains_iff {t : NameTable} : t.contains name = true ↔ name ∈ t.names := by
  rw [Array.mem_iff_getElem?, contains]
  rcases Nat.eq_zero_or_pos t.names.size with h0 | hpos
  · have hnone (i : Nat) : t.names[i]? = none := Array.getElem?_eq_none (by omega)
    rw [bisect, if_pos (by omega)]
    simp only [hnone, reduceCtorEq, decide_false, exists_const, Bool.false_eq_true]
  · rw [bisect_iff t.ascending hpos (by omega)]
    constructor
    · rintro ⟨i, -, -, hn⟩
      exact ⟨i, hn⟩
    · rintro ⟨i, hn⟩
      obtain ⟨hi, -⟩ := Array.getElem?_eq_some_iff.mp hn
      exact ⟨i, Nat.zero_le i, by omega, hn⟩

end RespClient.Text
