import RespClient.Text.Numeral
import RespClient.Bytes

namespace RespClient.Text.Numeral

/-- One or more decimal digits. -/
structure IsDigits (cs : List Char) : Prop where
  ne_nil : cs ≠ []
  digit : ∀ c ∈ cs, c.isDigit

def value (cs : List Char) : Nat := Nat.ofDigitChars 10 cs 0

/-- The spellings of a number: an optional sign and then digits, the first of which may be zeros. -/
inductive Signed : List Char → Int → Prop where
  | plain {ds : List Char} (digits : IsDigits ds) : Signed ds (value ds)
  | plus {ds : List Char} (digits : IsDigits ds) : Signed ('+' :: ds) (value ds)
  | minus {ds : List Char} (digits : IsDigits ds) : Signed ('-' :: ds) (-(value ds))

/-- The spellings of a number without a minus. -/
inductive Unsigned : List Char → Nat → Prop where
  | plain {ds : List Char} (digits : IsDigits ds) : Unsigned ds (value ds)
  | plus {ds : List Char} (digits : IsDigits ds) : Unsigned ('+' :: ds) (value ds)

/-- The spellings of a signed value of 64 bits. -/
structure Spells (cs : List Char) (n : Int) : Prop where
  signed : Signed cs n
  min_le : int64Min ≤ n
  le_max : n ≤ int64Max

theorem digit?_eq (c : Char) :
    digit? c = if c.isDigit then some (c.toNat - '0'.toNat) else none := by
  have hd : c.isDigit = true ↔ '0' ≤ c ∧ c ≤ '9' := by
    simp only [Char.isDigit, Bool.and_eq_true, decide_eq_true_eq]
    rfl
  unfold digit?
  by_cases h : c.isDigit
  · rw [if_pos h, if_pos (hd.1 h)]
    rfl
  · rw [if_neg h, if_neg (fun hc => h (hd.2 hc))]

theorem continue?_eq_some {n m : Nat} {cs : List Char} :
    continue? n cs = some m ↔ (∀ c ∈ cs, c.isDigit) ∧ m = Nat.ofDigitChars 10 cs n := by
  induction cs generalizing n with
  | nil => simpa [continue?] using eq_comm
  | cons c cs ih =>
    rw [continue?, digit?_eq]
    by_cases hc : c.isDigit
    · rw [if_pos hc, Option.bind_some, ih, Nat.ofDigitChars_cons]
      simp [hc]
    · simp [hc]

theorem digits?_eq_some {cs : List Char} {n : Nat} :
    digits? cs = some n ↔ IsDigits cs ∧ n = value cs := by
  cases cs with
  | nil => simpa [digits?] using fun h : IsDigits [] => absurd rfl h.ne_nil
  | cons c cs =>
    rw [digits?, continue?_eq_some]
    · exact ⟨fun h => ⟨⟨by simp, h.1⟩, h.2⟩, fun h => ⟨h.1.digit, h.2⟩⟩
    · simp

theorem IsDigits.head_ne {c d : Char} {cs : List Char} (h : IsDigits (c :: cs))
    (hd : d.isDigit = false) : c ≠ d := by
  intro he
  have hc := h.digit c (by simp)
  rw [he, hd] at hc
  cases hc

theorem Signed.char {cs : List Char} {n : Int} (h : Signed cs n) {c : Char} (hc : c ∈ cs) :
    c.isDigit ∨ c = '+' ∨ c = '-' := by
  cases h with
  | plain hd => exact .inl (hd.digit c hc)
  | plus hd =>
    rcases List.mem_cons.1 hc with rfl | hin
    · exact .inr (.inl rfl)
    · exact .inl (hd.digit c hin)
  | minus hd =>
    rcases List.mem_cons.1 hc with rfl | hin
    · exact .inr (.inr rfl)
    · exact .inl (hd.digit c hin)

theorem signed?_eq_some {cs : List Char} {n : Int} : signed? cs = some n ↔ Signed cs n := by
  constructor
  · intro h
    unfold signed? at h
    split at h <;> rw [Option.map_eq_some_iff] at h <;> obtain ⟨m, hm, rfl⟩ := h <;>
      obtain ⟨hd, rfl⟩ := digits?_eq_some.1 hm
    · exact .minus hd
    · exact .plus hd
    · exact .plain hd
  · intro h
    cases h with
    | minus hd => rw [signed?, digits?_eq_some.2 ⟨hd, rfl⟩, Option.map_some]
    | plus hd => rw [signed?, digits?_eq_some.2 ⟨hd, rfl⟩, Option.map_some]
    | plain hd =>
      rw [signed?, digits?_eq_some.2 ⟨hd, rfl⟩, Option.map_some]
      · rintro ds rfl
        exact hd.head_ne (d := '-') (by decide) rfl
      · rintro ds rfl
        exact hd.head_ne (d := '+') (by decide) rfl

/-- The reader accepts the spellings of a value, and nothing else. -/
theorem int64?_eq_some {cs : List Char} {n : Int} : int64? cs = some n ↔ Spells cs n := by
  rw [int64?, Option.filter_eq_some_iff, signed?_eq_some]
  simp only [Bool.and_eq_true, decide_eq_true_eq]
  exact ⟨fun h => ⟨h.1, h.2.1, h.2.2⟩, fun h => ⟨h.signed, h.min_le, h.le_max⟩⟩

theorem nat?_eq_some {bound n : Nat} {cs : List Char} :
    nat? bound cs = some n ↔ Unsigned cs n ∧ n ≤ bound := by
  unfold nat?
  rw [Option.filter_eq_some_iff, decide_eq_true_eq]
  refine and_congr_left fun _ => ⟨fun h => ?_, fun h => ?_⟩
  · split at h <;> obtain ⟨hd, rfl⟩ := digits?_eq_some.1 h
    · exact .plus hd
    · exact .plain hd
  · cases h with
    | plus hd => exact digits?_eq_some.2 ⟨hd, rfl⟩
    | plain hd =>
      split
      next ds => exact absurd rfl (hd.head_ne (d := '+') (by decide))
      next => exact digits?_eq_some.2 ⟨hd, rfl⟩

theorem isDigits_repr (n : Nat) : IsDigits n.repr.toList := by
  rw [Nat.toList_repr]
  exact ⟨Nat.toDigits_ne_nil, fun c hc => Nat.isDigit_of_mem_toDigits (by decide) (by decide) hc⟩

theorem value_repr (n : Nat) : value n.repr.toList = n := by
  rw [Nat.toList_repr, value, Nat.ofDigitChars_ten_toDigits]

theorem unsigned_repr (n : Nat) : Unsigned n.repr.toList n := by
  have h := Unsigned.plain (isDigits_repr n)
  rwa [value_repr] at h

theorem toList_toString_neg {m : Nat} (h : 0 < m) :
    (toString (-(m : Int))).toList = '-' :: m.repr.toList := by
  rw [Int.toString_eq_repr, Int.repr_eq_if, if_neg (by omega)]
  simp

theorem toList_toString_natCast (m : Nat) : (toString (m : Int)).toList = m.repr.toList := by
  rw [Int.toString_eq_repr, Int.repr_eq_if, if_pos (by omega), Int.toNat_natCast]

theorem signed_toString (n : Int) : Signed (toString n).toList n := by
  by_cases hn : 0 ≤ n
  · obtain ⟨m, rfl⟩ := Int.eq_ofNat_of_zero_le hn
    have h := Signed.plain (isDigits_repr m)
    rw [value_repr] at h
    rw [toList_toString_natCast]
    exact h
  · obtain ⟨m, rfl, hm⟩ : ∃ m : Nat, n = -(m : Int) ∧ 0 < m := ⟨n.natAbs, by omega, by omega⟩
    have h := Signed.minus (isDigits_repr m)
    rw [value_repr] at h
    rw [toList_toString_neg hm]
    exact h

/-- Digits are smaller than the power of ten with as many zeros. -/
theorem value_lt {cs : List Char} (h : ∀ c ∈ cs, c.isDigit) : value cs < Nat.pow 10 cs.length := by
  induction cs with
  | nil => decide
  | cons c cs ih =>
    have hc := Char.isDigit_iff_toNat.1 (h c (by simp))
    have ht := ih fun d hd => h d (List.mem_cons_of_mem _ hd)
    have hlead : c.toNat - '0'.toNat ≤ 9 := by
      have h0 : '0'.toNat = 48 := rfl
      have h9 : '9'.toNat = 57 := rfl
      omega
    have hm := Nat.mul_le_mul_left (Nat.pow 10 cs.length) hlead
    have hp : Nat.pow 10 (cs.length + 1) = Nat.pow 10 cs.length * 10 := rfl
    unfold value at ht ⊢
    rw [Nat.ofDigitChars_cons, Nat.ofDigitChars_eq_ofDigitChars_zero, ← Nat.pow_eq, Nat.mul_zero,
      Nat.zero_add, List.length_cons, hp]
    omega

theorem length_repr_le {ds : List Char} (h : IsDigits ds) :
    (value ds).repr.toList.length ≤ ds.length := by
  rw [Nat.toList_repr, Nat.length_toDigits_le_iff (by decide) (List.length_pos_iff.2 h.ne_nil)]
  exact value_lt h.digit

/-- No spelling of a number is shorter than the printed one. -/
theorem length_toString_le {cs : List Char} {n : Int} (h : Signed cs n) :
    (toString n).toList.length ≤ cs.length := by
  cases h with
  | plain hd =>
    rw [toList_toString_natCast]
    exact length_repr_le hd
  | plus hd =>
    rw [toList_toString_natCast, List.length_cons]
    exact Nat.le_succ_of_le (length_repr_le hd)
  | @minus ds hd =>
    by_cases hz : value ds = 0
    · have hl := length_repr_le hd
      rw [hz] at hl ⊢
      exact Nat.le_succ_of_le hl
    · rw [toList_toString_neg (by omega), List.length_cons, List.length_cons]
      exact Nat.succ_le_succ (length_repr_le hd)

def latin (bs : Bytes) : List Char := bs.map fun b => Char.ofNat b.toNat

theorem latin_ofText {s : String} (h : ∀ c ∈ s.toList, c.toNat < 128) :
    latin (Bytes.ofText s) = s.toList := by
  unfold Bytes.ofText
  generalize s.toList = cs at h ⊢
  induction cs with
  | nil => rfl
  | cons c cs ih =>
    have hc : c.toNat < 128 := h c (by simp)
    have hsize : c.utf8Size = 1 := by
      rw [Char.utf8Size_eq_one_iff, UInt32.le_iff_toNat_le]
      exact Nat.le_of_lt_succ hc
    have hbyte : Char.ofNat c.val.toUInt8.toNat = c := by
      have hmod : c.val.toUInt8.toNat = c.toNat := by
        rw [UInt32.toNat_toUInt8]
        exact Nat.mod_eq_of_lt (by change c.toNat < 256; omega)
      rw [hmod, Char.ofNat_toNat]
    have htail := ih fun d hd => h d (List.mem_cons_of_mem _ hd)
    rw [List.flatMap_cons, String.utf8EncodeChar_eq_singleton hsize]
    change Char.ofNat c.val.toUInt8.toNat :: latin (cs.flatMap String.utf8EncodeChar) = c :: cs
    rw [hbyte, htail]

theorem latin_ofInt (n : Int) : latin (Bytes.ofInt n) = (toString n).toList := by
  refine latin_ofText fun c hc => ?_
  rcases (signed_toString n).char hc with hd | rfl | rfl
  · have h9 : '9'.toNat = 57 := rfl
    have := (Char.isDigit_iff_toNat.1 hd).2
    omega
  · decide
  · decide

/-- The decimal form of a number spells it, and no spelling is shorter. -/
theorem ofInt_shortest (n : Int) :
    Signed (latin (Bytes.ofInt n)) n ∧
      ∀ field, Signed (latin field) n → (Bytes.ofInt n).length ≤ field.length := by
  have hlen (bs : Bytes) : (latin bs).length = bs.length := List.length_map _
  constructor
  · rw [latin_ofInt]
    exact signed_toString n
  · intro field hf
    rw [← hlen field, ← hlen (Bytes.ofInt n), latin_ofInt]
    exact length_toString_le hf

end RespClient.Text.Numeral
