import Mathlib.Tactic.SplitIfs
import RespClient.Reply.Decoder

namespace RespClient.Reply

theorem line_cases (buf : Bytes) :
    Bytes.lf ∉ buf ∨ ∃ line rest, buf = line ++ Bytes.lf :: rest ∧ Bytes.lf ∉ line := by
  by_cases h : Bytes.lf ∈ buf
  · exact .inr (List.eq_append_cons_of_mem h)
  · exact .inl h

theorem ne_lf_of_not_mem {line : Bytes} (h : Bytes.lf ∉ line) :
    ∀ b ∈ line, (b != Bytes.lf) = true := by
  intro b hb
  rw [bne_iff_ne]
  rintro rfl
  exact h hb

theorem front_of_not_mem (limits : Limits) (depth : Nat) {buf : Bytes} (h : Bytes.lf ∉ buf) :
    front limits depth buf = .incomplete := by
  have hd : (buf ++ []).dropWhile (· != Bytes.lf) = [].dropWhile (· != Bytes.lf) :=
    List.dropWhile_append_of_pos (ne_lf_of_not_mem h)
  rw [List.append_nil] at hd
  rw [front, hd]
  rfl

theorem front_line (limits : Limits) (depth : Nat) {line : Bytes} (rest : Bytes)
    (h : Bytes.lf ∉ line) :
    front limits depth (line ++ Bytes.lf :: rest) =
      if line.getLast? = some Bytes.cr then
        lineFront limits depth (line ++ Bytes.lf :: rest) rest line.dropLast
      else .malformed .lineEnd (line ++ Bytes.lf :: rest) := by
  have hd : (line ++ Bytes.lf :: rest).dropWhile (· != Bytes.lf) = Bytes.lf :: rest := by
    rw [List.dropWhile_append_of_pos (ne_lf_of_not_mem h)]
    simp
  have ht : (line ++ Bytes.lf :: rest).takeWhile (· != Bytes.lf) = line := by
    rw [List.takeWhile_append_of_pos (ne_lf_of_not_mem h)]
    simp
  rw [front, hd]
  simp only [ht]

/-- The same front with more bytes behind it. -/
def Front.extend (f : Front) (more : Bytes) : Front :=
  match f with
  | .incomplete => .incomplete
  | .value r rest => .value r (rest ++ more)
  | .opens n rest => .opens n (rest ++ more)
  | .malformed m rest => .malformed m (rest ++ more)

theorem bulkFront_append (limits : Limits) (buf rest more : Bytes) (n : Int) :
    bulkFront limits buf rest n = .incomplete ∨
      bulkFront limits (buf ++ more) (rest ++ more) n =
        (bulkFront limits buf rest n).extend more := by
  unfold bulkFront
  split_ifs with hnull hneg hbig
  · exact .inr rfl
  · exact .inr rfl
  · exact .inr rfl
  · split
    · next data a b tail hs =>
      obtain ⟨rfl, hl⟩ := Bytes.splitAt?_eq_some.1 hs
      have hs' : Bytes.splitAt? n.toNat (data ++ a :: b :: tail ++ more) =
          some (data, a :: b :: (tail ++ more)) :=
        Bytes.splitAt?_eq_some.2 ⟨by simp, hl⟩
      rw [hs']
      dsimp only
      split_ifs <;> exact .inr rfl
    · exact .inl rfl

theorem multiFront_append (limits : Limits) (depth : Nat) (rest more : Bytes) (n : Int) :
    multiFront limits depth (rest ++ more) n = (multiFront limits depth rest n).extend more := by
  unfold multiFront
  split_ifs <;> rfl

theorem lineFront_append (limits : Limits) (depth : Nat) (buf rest line more : Bytes) :
    lineFront limits depth buf rest line = .incomplete ∨
      lineFront limits depth (buf ++ more) (rest ++ more) line =
        (lineFront limits depth buf rest line).extend more := by
  cases line with
  | nil => exact .inr rfl
  | cons marker field =>
    rw [lineFront, lineFront]
    split_ifs with hstatus herror hint hbulk hmulti
    · exact .inr rfl
    · exact .inr rfl
    · cases numeral? field <;> exact .inr rfl
    · cases numeral? field with
      | some n => exact bulkFront_append limits buf rest more n
      | none => exact .inr rfl
    · cases numeral? field with
      | some n => exact .inr (multiFront_append limits depth rest more n)
      | none => exact .inr rfl
    · exact .inr rfl

theorem front_append {limits : Limits} {depth : Nat} {buf : Bytes} {f : Front}
    (hf : front limits depth buf = f) (h : f ≠ .incomplete) (more : Bytes) :
    front limits depth (buf ++ more) = f.extend more := by
  subst hf
  rcases line_cases buf with hno | ⟨line, rest, rfl, hline⟩
  · exact absurd (front_of_not_mem limits depth hno) h
  · have hassoc : line ++ Bytes.lf :: rest ++ more = line ++ Bytes.lf :: (rest ++ more) := by simp
    rw [hassoc, front_line limits depth _ hline]
    rw [front_line limits depth _ hline] at h ⊢
    by_cases hcr : line.getLast? = some Bytes.cr
    · rw [if_pos hcr] at h ⊢
      rw [if_pos hcr, ← hassoc]
      exact (lineFront_append limits depth _ rest line.dropLast more).resolve_left h
    · rw [if_neg hcr, if_neg hcr, ← hassoc]
      rfl

namespace Decoder

/-- A finished value is placed, and decoding goes on unless it ends the whole reply. -/
def settle (d : Decoder) (r : Reply) (rest : Bytes) : Verdict × Decoder × Bytes :=
  match place r d.stack with
  | (stack, some whole) => (.reply whole, { d with stack := stack }, rest)
  | (stack, none) => Decoder.decode { d with stack := stack } rest

theorem decode_eq (d : Decoder) (buf : Bytes) :
    d.decode buf =
      match front d.limits d.stack.length buf with
      | .incomplete => (.more, d, buf)
      | .malformed m rest => (.malformed m, { d with stack := [] }, rest)
      | .opens n rest => Decoder.decode { d with stack := ⟨n, n, []⟩ :: d.stack } rest
      | .value r rest => d.settle r rest := by
  rw [Decoder.decode]
  split
  · next hf => rw [hf]
  · next hf => rw [hf]
  · next hf => rw [hf]
  · next hf =>
    rw [hf]
    rfl

theorem decode_of_incomplete {d : Decoder} {buf : Bytes}
    (h : front d.limits d.stack.length buf = .incomplete) : d.decode buf = (.more, d, buf) := by
  rw [decode_eq, h]

theorem decode_of_malformed {d : Decoder} {buf rest : Bytes} {m : Malformed}
    (h : front d.limits d.stack.length buf = .malformed m rest) :
    d.decode buf = (.malformed m, { d with stack := [] }, rest) := by
  rw [decode_eq, h]

theorem decode_of_opens {d : Decoder} {buf rest : Bytes} {n : Nat}
    (h : front d.limits d.stack.length buf = .opens n rest) :
    d.decode buf = Decoder.decode { d with stack := ⟨n, n, []⟩ :: d.stack } rest := by
  rw [decode_eq, h]

theorem decode_of_value {d : Decoder} {buf rest : Bytes} {r : Reply}
    (h : front d.limits d.stack.length buf = .value r rest) :
    d.decode buf = d.settle r rest := by
  rw [decode_eq, h]

theorem settle_of_whole {d : Decoder} {r whole : Reply} {rest : Bytes} {stack : List Frame}
    (h : place r d.stack = (stack, some whole)) :
    d.settle r rest = (.reply whole, { d with stack := stack }, rest) := by
  rw [settle, h]

theorem settle_of_open {d : Decoder} {r : Reply} {rest : Bytes} {stack : List Frame}
    (h : place r d.stack = (stack, none)) :
    d.settle r rest = Decoder.decode { d with stack := stack } rest := by
  rw [settle, h]

/-- Decoding with more bytes behind the buffer: a verdict stands, and where bytes were missing
decoding goes on from the state it was left in. -/
theorem decode_append (d : Decoder) (buf more : Bytes) :
    d.decode (buf ++ more) =
      match d.decode buf with
      | (.more, d', rest) => d'.decode (rest ++ more)
      | (v, d', rest) => (v, d', rest ++ more) := by
  fun_induction Decoder.decode d buf with
  | case1 => rfl
  | case2 d buf m rest hf =>
    exact decode_of_malformed (front_append hf (by simp) more)
  | case3 d buf n rest hf ih =>
    rw [← ih]
    exact decode_of_opens (front_append hf (by simp) more)
  | case4 d buf r rest hf stack whole hp =>
    rw [decode_of_value (front_append hf (by simp) more), settle_of_whole hp]
  | case5 d buf r rest hf stack hp ih =>
    rw [← ih, decode_of_value (front_append hf (by simp) more), settle_of_open hp]

/-- Where bytes are missing, asking again changes nothing. -/
theorem decode_idle {d d' : Decoder} {buf rest : Bytes} (h : d.decode buf = (.more, d', rest)) :
    d'.decode rest = (.more, d', rest) := by
  have ha := decode_append d buf []
  simpa only [List.append_nil, h] using ha.symm

end Decoder

end RespClient.Reply
