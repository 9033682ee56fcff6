import Mathlib.Algebra.Group.Nat.Defs
import RespClient.Text.Utf8

namespace RespClient.Text.Utf8

/-- The last `n` bytes of a character with value `v`, each with six of its bits. -/
def continuation (v : Nat) : Nat → Bytes
  | 0 => []
  | n + 1 => UInt8.ofNat (v / 64 ^ n % 64 + 0x80) :: continuation v n

/-- The character with value `v` is one that `p` can come to. -/
structure Partial.Awaits (p : Partial) (v : Nat) : Prop where
  owed : 0 < p.owed
  bits : p.bits = v / 64 ^ p.owed
  low : p.low ≤ v / 64 ^ (p.owed - 1) % 64 + 0x80
  high : v / 64 ^ (p.owed - 1) % 64 + 0x80 ≤ p.high

/-- The next byte is a continuation byte. -/
structure Partial.Sane (p : Partial) : Prop where
  owed : 0 < p.owed
  low : 0x80 ≤ p.low
  high : p.high ≤ 0xBF

theorem div_pow_succ (v n : Nat) : v / 64 ^ (n + 1) = v / 64 ^ n / 64 := by
  rw [Nat.pow_succ, Nat.div_div_eq_div_mul]

/-- What one continuation byte makes of a character under way. -/
theorem Partial.take_eq {p : Partial} {b : UInt8} (hl : p.low ≤ b.toNat) (hh : b.toNat ≤ p.high) :
    p.take b = if p.owed ≤ 1 then .whole (Char.ofNat (p.bits * 64 + (b.toNat - 0x80)))
      else .opens ⟨p.owed - 1, 0x80, 0xBF, p.bits * 64 + (b.toNat - 0x80)⟩ := by
  unfold Partial.take
  rw [if_pos ⟨hl, hh⟩]

theorem piecesFrom_continuation {p : Partial} {v : Nat} (h : p.Awaits v) (bs : Bytes) :
    piecesFrom (some p) (continuation v p.owed ++ bs) = some (Char.ofNat v) :: piecesFrom none bs := by
  obtain ⟨n, hn⟩ := Nat.exists_eq_succ_of_ne_zero (Nat.ne_of_gt h.owed)
  induction n generalizing p with
  | zero =>
    have hb := h.bits
    have hl := h.low
    have hh := h.high
    simp only [hn, Nat.succ_eq_add_one, Nat.zero_add, Nat.pow_one, Nat.sub_self, Nat.pow_zero,
      Nat.div_one] at hb hl hh
    have hv : (UInt8.ofNat (v % 64 + 0x80)).toNat = v % 64 + 0x80 := by
      rw [UInt8.toNat_ofNat']
      omega
    simp only [hn, continuation, Nat.pow_zero, Nat.div_one, List.cons_append, List.nil_append,
      piecesFrom]
    rw [Partial.take_eq (by omega) (by omega), hv, if_pos (by omega)]
    have he : p.bits * 64 + (v % 64 + 0x80 - 0x80) = v := by omega
    rw [he]
  | succ n ih =>
    have hb := h.bits
    have hl := h.low
    have hh := h.high
    simp only [hn, Nat.succ_eq_add_one, Nat.add_sub_cancel] at hb hl hh
    have hv : (UInt8.ofNat (v / 64 ^ (n + 1) % 64 + 0x80)).toNat = v / 64 ^ (n + 1) % 64 + 0x80 := by
      rw [UInt8.toNat_ofNat']
      omega
    have hbits : p.bits * 64 + (v / 64 ^ (n + 1) % 64 + 0x80 - 0x80) = v / 64 ^ (n + 1) := by
      rw [hb, div_pow_succ v (n + 1)]
      omega
    rw [hn, continuation, List.cons_append, piecesFrom,
      Partial.take_eq (by omega) (by omega), hv, if_neg (by omega), hbits]
    have hd := div_pow_succ v n
    have hnext : Partial.Awaits ⟨p.owed - 1, 0x80, 0xBF, v / 64 ^ (n + 1)⟩ v := by
      simp only [hn, Nat.succ_eq_add_one, Nat.add_sub_cancel]
      refine ⟨by simp, rfl, ?_, ?_⟩ <;> simp only [Nat.add_sub_cancel] <;> omega
    have hread := ih hnext (by simp [hn])
    simp only [hn, Nat.succ_eq_add_one, Nat.add_sub_cancel] at hread ⊢
    exact hread

/-- A character under way that is finished was continued by the bytes of a value. -/
theorem of_piecesFrom {p : Partial} (hp : p.Sane) {bs : Bytes} {cs : List Char}
    (h : piecesFrom (some p) bs = cs.map some) :
    ∃ v rest cs', p.Awaits v ∧ bs = continuation v p.owed ++ rest ∧ cs = Char.ofNat v :: cs' ∧
      piecesFrom none rest = cs'.map some := by
  induction bs generalizing p with
  | nil => cases cs <;> cases h
  | cons b bs ih =>
    have hlow := hp.low
    have hhigh := hp.high
    by_cases hb : p.low ≤ b.toNat ∧ b.toNat ≤ p.high
    · have ht := Partial.take_eq hb.1 hb.2
      simp only [piecesFrom, ht] at h
      by_cases ho : p.owed ≤ 1
      · have ho1 : p.owed = 1 := Nat.le_antisymm ho hp.owed
        simp only [if_pos ho] at h
        cases cs with
        | nil => cases h
        | cons c cs =>
          simp only [List.map_cons, List.cons.injEq, Option.some.injEq] at h
          refine ⟨p.bits * 64 + (b.toNat - 0x80), bs, cs, ⟨hp.owed, ?_, ?_, ?_⟩, ?_, by rw [h.1], h.2⟩
          · rw [ho1, Nat.pow_one]
            omega
          · simp only [ho1, Nat.sub_self, Nat.pow_zero, Nat.div_one]
            omega
          · simp only [ho1, Nat.sub_self, Nat.pow_zero, Nat.div_one]
            omega
          · have hv : (p.bits * 64 + (b.toNat - 0x80)) % 64 + 0x80 = b.toNat := by omega
            simp only [ho1, continuation, Nat.pow_zero, Nat.div_one, hv, UInt8.ofNat_toNat,
              List.cons_append, List.nil_append]
      · simp only [if_neg ho] at h
        obtain ⟨v, rest, cs', ha, rfl, hc, hr⟩ := ih ⟨by simp only; omega, by simp, by simp⟩ h
        obtain ⟨n, hn⟩ : ∃ n, p.owed = n + 2 := ⟨p.owed - 2, by omega⟩
        have hbits := ha.bits
        simp only [hn, Nat.reduceSubDiff] at hbits
        have hd : v / 64 ^ (n + 2) = v / 64 ^ (n + 1) / 64 := div_pow_succ v (n + 1)
        refine ⟨v, rest, cs', ⟨hp.owed, ?_, ?_, ?_⟩, ?_, hc, hr⟩
        · rw [hn]
          omega
        · simp only [hn, Nat.reduceSubDiff]
          omega
        · simp only [hn, Nat.reduceSubDiff]
          omega
        · have hv : v / 64 ^ (n + 1) % 64 + 0x80 = b.toNat := by omega
          have hc : continuation v (n + 2) = b :: continuation v (n + 1) := by
            rw [continuation, hv, UInt8.ofNat_toNat]
          simp only [hn, Nat.reduceSubDiff, hc, List.cons_append]
    · have ht : p.take b = .stray := by
        unfold Partial.take
        rw [if_neg hb]
      simp only [piecesFrom, ht] at h
      cases hb : lead b <;> rw [hb] at h <;> cases cs <;> cases h

theorem val_ofNat {v : Nat} (h : v.isValidChar) : (Char.ofNat v).val.toNat = v := by
  unfold Char.ofNat
  rw [dif_pos h]
  rfl

/-- The first byte of a character that has more of them. -/
theorem lead_opens {b : UInt8} {p : Partial} (h : lead b = .opens p) :
    p.Sane ∧ ∀ v, p.Awaits v →
      v.isValidChar ∧ String.utf8EncodeChar (Char.ofNat v) = b :: continuation v p.owed := by
  have hb : b.toNat < 256 := b.toNat_lt
  unfold lead at h
  simp only at h
  split at h
  · cases h
  split at h
  · cases h
  split at h
  · cases h
    refine ⟨⟨by simp, by simp, by simp⟩, ?_⟩
    rintro v ⟨-, hbits, -, -⟩
    simp only [Nat.pow_one] at hbits
    have hv : v.isValidChar := by simp only [Nat.isValidChar]; omega
    refine ⟨hv, ?_⟩
    unfold String.utf8EncodeChar
    simp only [val_ofNat hv, continuation, Nat.pow_zero, Nat.div_one]
    have he : v / 64 % 32 + 0xC0 = b.toNat := by omega
    rw [if_neg (by omega), if_pos (by omega), he, UInt8.ofNat_toNat]
  split at h
  · cases h
    refine ⟨⟨by simp, by simp only; split <;> simp, by simp only; split <;> simp⟩, ?_⟩
    rintro v ⟨-, hbits, hlow, hhigh⟩
    have hsq : (64 : Nat) ^ 2 = 4096 := rfl
    simp only [hsq, Nat.add_one_sub_one, Nat.pow_one] at hbits hlow hhigh
    have hv : 0x800 ≤ v ∧ v ≤ 0xFFFF ∧ v.isValidChar := by
      simp only [Nat.isValidChar]
      split at hlow <;> split at hhigh <;> omega
    refine ⟨hv.2.2, ?_⟩
    unfold String.utf8EncodeChar
    simp only [val_ofNat hv.2.2, continuation, Nat.pow_zero, Nat.div_one, Nat.pow_one]
    have he : v / 4096 % 16 + 0xE0 = b.toNat := by omega
    rw [if_neg (by omega), if_neg (by omega), if_pos (by omega), he, UInt8.ofNat_toNat]
  split at h
  · cases h
    refine ⟨⟨by simp, by simp only; split <;> simp, by simp only; split <;> simp⟩, ?_⟩
    rintro v ⟨-, hbits, hlow, hhigh⟩
    have hsq : (64 : Nat) ^ 2 = 4096 := rfl
    have hcube : (64 : Nat) ^ 3 = 262144 := rfl
    simp only [hsq, hcube, Nat.add_one_sub_one] at hbits hlow hhigh
    have hv : 0x10000 ≤ v ∧ v.isValidChar := by
      simp only [Nat.isValidChar]
      split at hlow <;> split at hhigh <;> omega
    refine ⟨hv.2, ?_⟩
    unfold String.utf8EncodeChar
    simp only [val_ofNat hv.2, continuation, Nat.pow_zero, Nat.div_one, Nat.pow_one, hsq]
    have he : v / 262144 % 8 + 0xF0 = b.toNat := by omega
    rw [if_neg (by omega), if_neg (by omega), if_neg (by omega), he, UInt8.ofNat_toNat]
  · cases h

theorem lead_whole {b : UInt8} {c : Char} (h : lead b = .whole c) : String.utf8EncodeChar c = [b] := by
  unfold lead at h
  simp only at h
  split at h
  next hb =>
    cases h
    have hv : (Char.ofNat b.toNat).val.toNat = b.toNat := val_ofNat (.inl (by omega))
    unfold String.utf8EncodeChar
    simp only [hv]
    rw [if_pos (by omega), UInt8.ofNat_toNat]
  · repeat' split at h
    all_goals cases h

theorem lead_two {b : UInt8} {n : Nat} (hb : b.toNat = n + 0xC0) (h : 2 ≤ n) (h' : n < 0x20) :
    lead b = .opens ⟨1, 0x80, 0xBF, n⟩ := by
  unfold lead
  simp only [hb, Nat.add_sub_cancel]
  rw [if_neg (by omega), if_neg (by omega), if_pos (by omega)]

theorem lead_three {b : UInt8} {n : Nat} (hb : b.toNat = n + 0xE0) (h : n < 0x10) :
    lead b = .opens ⟨2, if n = 0 then 0xA0 else 0x80, if n = 0xD then 0x9F else 0xBF, n⟩ := by
  have hlow : n + 0xE0 = 0xE0 ↔ n = 0 := by omega
  have hhigh : n + 0xE0 = 0xED ↔ n = 0xD := by omega
  unfold lead
  simp only [hb, Nat.add_sub_cancel, hlow, hhigh]
  rw [if_neg (by omega), if_neg (by omega), if_neg (by omega), if_pos (by omega)]

theorem lead_four {b : UInt8} {n : Nat} (hb : b.toNat = n + 0xF0) (h : n < 5) :
    lead b = .opens ⟨3, if n = 0 then 0x90 else 0x80, if n = 4 then 0x8F else 0xBF, n⟩ := by
  have hlow : n + 0xF0 = 0xF0 ↔ n = 0 := by omega
  have hhigh : n + 0xF0 = 0xF4 ↔ n = 4 := by omega
  unfold lead
  simp only [hb, Nat.add_sub_cancel, hlow, hhigh]
  rw [if_neg (by omega), if_neg (by omega), if_neg (by omega), if_neg (by omega), if_pos (by omega)]

/-- The bytes of a character: one, or a first one and the others. -/
theorem encode_cases (c : Char) :
    (∃ b, String.utf8EncodeChar c = [b] ∧ lead b = .whole c) ∨
      ∃ b p, String.utf8EncodeChar c = b :: continuation c.toNat p.owed ∧ lead b = .opens p ∧
        p.Awaits c.toNat := by
  have hvalid : c.toNat.isValidChar := c.valid
  simp only [Nat.isValidChar] at hvalid
  have hc : c.val.toNat = c.toNat := rfl
  have hsq : (64 : Nat) ^ 2 = 4096 := rfl
  have byte {n : Nat} (hn : n < 256) : (UInt8.ofNat n).toNat = n := by
    rw [UInt8.toNat_ofNat']
    omega
  unfold String.utf8EncodeChar
  simp only [hc]
  split
  · refine .inl ⟨_, rfl, ?_⟩
    unfold lead
    simp only [byte (show c.toNat < 256 by omega)]
    rw [if_pos (by omega), Char.ofNat_toNat]
  split
  · have hq : c.toNat / 64 % 32 = c.toNat / 64 := by omega
    rw [hq]
    have hl := lead_two (byte (show c.toNat / 64 + 0xC0 < 256 by omega)) (by omega) (by omega)
    refine .inr ⟨_, _, ?_, hl, by simp, by simp, ?_, ?_⟩
    · simp only [continuation, Nat.pow_zero, Nat.div_one]
    · simp only [Nat.sub_self, Nat.pow_zero, Nat.div_one]
      omega
    · simp only [Nat.sub_self, Nat.pow_zero, Nat.div_one]
      omega
  split
  · have hq : c.toNat / 4096 % 16 = c.toNat / 4096 := by omega
    rw [hq]
    have hl := lead_three (byte (show c.toNat / 4096 + 0xE0 < 256 by omega)) (by omega)
    refine .inr ⟨_, _, ?_, hl, by simp, by simp, ?_, ?_⟩
    · simp only [continuation, Nat.pow_zero, Nat.pow_one, Nat.div_one]
    · simp only [Nat.add_one_sub_one, Nat.pow_one]
      split <;> omega
    · simp only [Nat.add_one_sub_one, Nat.pow_one]
      split <;> omega
  · have hq : c.toNat / 262144 % 8 = c.toNat / 262144 := by omega
    rw [hq]
    have hl := lead_four (byte (show c.toNat / 262144 + 0xF0 < 256 by omega)) (by omega)
    refine .inr ⟨_, _, ?_, hl, by simp, by simp, ?_, ?_⟩
    · simp only [continuation, hsq, Nat.pow_zero, Nat.pow_one, Nat.div_one]
    · simp only [Nat.add_one_sub_one, hsq]
      split <;> omega
    · simp only [Nat.add_one_sub_one, hsq]
      split <;> omega

theorem pieces_encode (cs : List Char) :
    pieces (cs.flatMap String.utf8EncodeChar) = cs.map some := by
  unfold pieces
  induction cs with
  | nil => rfl
  | cons c cs ih =>
    rw [List.flatMap_cons]
    rcases encode_cases c with ⟨b, he, hl⟩ | ⟨b, p, he, hl, ha⟩
    · rw [he, List.singleton_append, piecesFrom, hl]
      simp only [ih, List.map_cons]
    · rw [he, List.cons_append, piecesFrom, hl]
      simp only [piecesFrom_continuation ha, ih, List.map_cons, Char.ofNat_toNat]

theorem encode_of_pieces {bs : Bytes} {cs : List Char} (h : pieces bs = cs.map some) :
    bs = cs.flatMap String.utf8EncodeChar := by
  unfold pieces at h
  generalize hn : bs.length = n
  -- A character takes several bytes at once, so the induction is on the length.
  induction n using Nat.strongRecOn generalizing bs cs with
  | _ n ih =>
    cases bs with
    | nil =>
      cases cs with
      | nil => rfl
      | cons c cs => cases h
    | cons b bs =>
      simp only [piecesFrom] at h
      cases hb : lead b with
      | whole c =>
        rw [hb] at h
        cases cs with
        | nil => cases h
        | cons c' cs =>
          simp only [List.map_cons, List.cons.injEq, Option.some.injEq] at h
          obtain ⟨rfl, h⟩ := h
          have hrest := ih bs.length (by simp [← hn]) h rfl
          rw [List.flatMap_cons, lead_whole hb, ← hrest, List.singleton_append]
      | opens p =>
        rw [hb] at h
        obtain ⟨hp, hv⟩ := lead_opens hb
        obtain ⟨v, rest, cs', ha, rfl, rfl, hr⟩ := of_piecesFrom hp h
        have hlt : rest.length < n := by simp only [← hn, List.length_cons, List.length_append]; omega
        have hrest := ih rest.length hlt hr rfl
        rw [List.flatMap_cons, (hv v ha).2, ← hrest, List.cons_append]
      | stray =>
        rw [hb] at h
        cases cs <;> cases h

theorem mapM_id_eq_some {ps : List (Option Char)} {cs : List Char} :
    ps.mapM id = some cs ↔ ps = cs.map some := by
  induction ps generalizing cs with
  | nil => cases cs <;> simp
  | cons p ps ih =>
    cases p with
    | none => cases cs <;> simp
    | some c =>
      cases cs with
      | nil => simp [Option.bind_eq_some_iff]
      | cons c' cs =>
        simp only [List.mapM_cons, id, Option.bind_eq_bind, Option.bind_some, Option.bind_eq_some_iff,
          Option.pure_def, Option.some.injEq, List.cons.injEq, List.map_cons, ih]
        constructor
        · rintro ⟨_, h, rfl, rfl⟩
          exact ⟨rfl, h⟩
        · rintro ⟨rfl, h⟩
          exact ⟨cs, h, rfl, rfl⟩

/-- The strict reading accepts the bytes of a text, and nothing else. -/
theorem strict?_eq_some {bs : Bytes} {text : String} :
    strict? bs = some text ↔ bs = Bytes.ofText text := by
  simp only [strict?, Option.map_eq_some_iff, mapM_id_eq_some, Bytes.ofText]
  constructor
  · rintro ⟨cs, h, rfl⟩
    rw [encode_of_pieces h, String.toList_ofList]
  · rintro rfl
    exact ⟨text.toList, pieces_encode _, String.ofList_toList⟩

theorem ofText_inj {s t : String} : Bytes.ofText s = Bytes.ofText t ↔ s = t := by
  refine ⟨fun h => ?_, congrArg Bytes.ofText⟩
  have hs : strict? (Bytes.ofText s) = some s := strict?_eq_some.mpr rfl
  rw [h, strict?_eq_some.mpr rfl] at hs
  exact (Option.some.inj hs).symm

/-- Whatever the character under way comes to, its value is at least 16. -/
def Partial.Large (p : Partial) : Prop := 16 ≤ p.bits * 64 + (p.low - 0x80)

theorem lead_large {b : UInt8} {p : Partial} (h : lead b = .opens p) : p.Large := by
  unfold lead at h
  simp only at h
  split at h
  · cases h
  split at h
  · cases h
  split at h
  · cases h
    simp only [Partial.Large]
    omega
  split at h
  · cases h
    simp only [Partial.Large]
    split <;> omega
  split at h
  · cases h
    simp only [Partial.Large]
    split <;> omega
  · cases h

theorem ofNat_eq_newline {n : Nat} (h : Char.ofNat n = '\n') : n = 10 := by
  by_cases hv : n.isValidChar
  · have hn := val_ofNat hv
    rw [h] at hn
    exact hn.symm
  · unfold Char.ofNat at h
    rw [dif_neg hv] at h
    cases h

theorem newline_of_lead {b : UInt8} (h : lead b = .whole '\n') : b = Bytes.lf := by
  have hw := lead_whole h
  have hn : String.utf8EncodeChar '\n' = [Bytes.lf] := by decide
  rw [hn] at hw
  cases hw
  rfl

theorem Partial.Large.take {p : Partial} (h : p.Large) (b : UInt8) :
    p.take b ≠ .whole '\n' ∧ ∀ q, p.take b = .opens q → q.Large := by
  unfold Large at h
  unfold Partial.take
  split
  next hb =>
    dsimp only
    split
    · refine ⟨fun he => ?_, fun q he => (by cases he)⟩
      have hn := ofNat_eq_newline (Lead.whole.inj he)
      omega
    · refine ⟨fun he => (by cases he), fun q he => ?_⟩
      cases he
      simp only [Large]
      omega
  next => exact ⟨fun he => (by cases he), fun q he => (by cases he)⟩

/-- The characters after the first byte of one, and those of what follows, are no line feeds either. -/
theorem newline_not_mem_piecesFrom {bs : Bytes} (h : Bytes.lf ∉ bs) (p : Option Partial)
    (hp : ∀ q ∈ p, q.Large) : some '\n' ∉ piecesFrom p bs := by
  induction bs generalizing p with
  | nil => cases p <;> simp [piecesFrom]
  | cons b bs ih =>
    obtain ⟨hb, hbs⟩ := not_or.mp fun hm => h (List.mem_cons.mpr hm)
    have between : some '\n' ∉ piecesFrom none bs := ih hbs none (by simp)
    have within (q : Partial) (hq : q.Large) : some '\n' ∉ piecesFrom (some q) bs :=
      ih hbs (some q) (by simpa using hq)
    have fresh : some '\n' ∉ piecesFrom none (b :: bs) := by
      rw [piecesFrom]
      split
      next c hc =>
        rintro (_ | ⟨_, hm⟩)
        · exact hb (newline_of_lead hc).symm
        · exact between hm
      next q hq => exact within q (lead_large hq)
      next => simpa using between
    cases p with
    | none => exact fresh
    | some p =>
      have large := hp p rfl
      rw [piecesFrom]
      split
      next c hc =>
        rintro (_ | ⟨_, hm⟩)
        · exact (large.take b).1 hc
        · exact between hm
      next q hq => exact within q ((large.take b).2 q hq)
      next =>
        have hs : some '\n' ∉ none :: piecesFrom none (b :: bs) := by simpa using fresh
        rw [piecesFrom] at hs
        split at hs <;> exact hs

theorem newline_not_mem_lenient {bs : Bytes} (h : Bytes.lf ∉ bs) : '\n' ∉ (lenient bs).toList := by
  rw [lenient, String.toList_ofList]
  intro hm
  obtain ⟨p, hp, hc⟩ := List.mem_map.mp hm
  cases p with
  | none => cases hc
  | some c =>
    cases hc
    exact newline_not_mem_piecesFrom h none (by simp) hp

end RespClient.Text.Utf8
