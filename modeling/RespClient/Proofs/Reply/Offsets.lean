import Mathlib
import RespClient.Proofs.Reply.Grammar

namespace RespClient.Reply

def add? (m n : Nat) : Option Nat := if m + n < 2 ^ 64 then some (m + n) else none

def sub? (m n : Nat) : Option Nat := if n ≤ m then some (m - n) else none

/-- The bytes from one offset up to another one, both inside the buffer. -/
def slice? (buf : Bytes) (i j : Nat) : Option Bytes :=
  if i ≤ j ∧ j ≤ buf.length then some ((buf.take j).drop i) else none

/-- The buffer without its first `n` bytes, which it has to have. -/
def advance? (buf : Bytes) (n : Nat) : Option Bytes :=
  if n ≤ buf.length then some (buf.drop n) else none

/-- The first line of a buffer: its text without the line end, and its length with it. -/
inductive Line where
  | missing
  | malformed
  | whole (text : Bytes) (length : Nat)

def line? (buf : Bytes) : Option Line :=
  match buf.idxOf? Bytes.lf with
  | none => some .missing
  | some i =>
    if 0 < i then do
      let j ← sub? i 1
      let b ← buf[j]?
      if b = Bytes.cr then
        let text ← slice? buf 0 j
        let length ← add? i 1
        some (.whole text length)
      else some .malformed
    else some .malformed

/-- The payload that a header of `length` bytes announces. -/
def bulk? (limits : Limits) (buf : Bytes) (n : Int) (length : Nat) : Option Front :=
  if n = -1 then do
    let rest ← advance? buf length
    some (.value (.bulk none) rest)
  else if n < 0 then some (.malformed (.bulkLength n) buf)
  else if limits.bulk < n.toNat then some (.malformed (.bulkLimit n.toNat limits.bulk) buf)
  else do
    let stop ← add? length n.toNat
    let size ← add? stop 2
    if buf.length < size then some .incomplete
    else
      let lineEnd ← slice? buf stop size
      if lineEnd = Bytes.crlf then
        let behind ← advance? buf length
        let data ← slice? behind 0 n.toNat
        let behind ← advance? behind n.toNat
        let rest ← advance? behind 2
        some (.value (.bulk (some data)) rest)
      else some (.malformed .bulkEnd buf)

/-- A line of `length` bytes with its end. -/
def field? (limits : Limits) (depth : Nat) (buf : Bytes) (length : Nat) : Bytes → Option Front
  | [] => some (.malformed .emptyLine buf)
  | marker :: field =>
    if marker = '+'.toUInt8 then do
      let rest ← advance? buf length
      some (.value (.status (Text.Utf8.lenient field)) rest)
    else if marker = '-'.toUInt8 then do
      let rest ← advance? buf length
      some (.value (.error (Text.Utf8.lenient field)) rest)
    else if marker = ':'.toUInt8 then
      match numeral? field with
      | some n => do
        let rest ← advance? buf length
        some (.value (.integer n) rest)
      | none => some (.malformed (.numeral field) buf)
    else if marker = '$'.toUInt8 then
      match numeral? field with
      | some n => bulk? limits buf n length
      | none => some (.malformed (.numeral field) buf)
    else if marker = '*'.toUInt8 then
      match numeral? field with
      | some n => do
        let rest ← advance? buf length
        some (multiFront limits depth rest n)
      | none => some (.malformed (.numeral field) buf)
    else some (.malformed (.marker marker) buf)

/-- The next value or list header of the buffer, under `depth` open lists. -/
def front? (limits : Limits) (depth : Nat) (buf : Bytes) : Option Front := do
  match ← line? buf with
  | .missing => some .incomplete
  | .malformed => some (.malformed .lineEnd buf)
  | .whole text length => field? limits depth buf length text

theorem add?_eq {m n : Nat} (h : m + n < 2 ^ 64) : add? m n = some (m + n) := if_pos h

theorem sub?_eq {m n : Nat} (h : n ≤ m) : sub? m n = some (m - n) := if_pos h

theorem advance?_append (front rest : Bytes) : advance? (front ++ rest) front.length = some rest := by
  simp [advance?]

theorem slice?_append (front mid rest : Bytes) :
    slice? (front ++ mid ++ rest) front.length (front ++ mid).length = some mid := by
  have hle : front.length ≤ (front ++ mid).length ∧ (front ++ mid).length ≤
      (front ++ mid ++ rest).length := by simp
  rw [slice?, if_pos hle, List.take_left, List.drop_left]

theorem slice?_front (data rest : Bytes) : slice? (data ++ rest) 0 data.length = some data :=
  slice?_append [] data rest

theorem idxOf?_of_not_mem {buf : Bytes} (h : Bytes.lf ∉ buf) : buf.idxOf? Bytes.lf = none :=
  List.idxOf?_eq_none_iff.mpr h

theorem idxOf?_line {line : Bytes} (rest : Bytes) (h : Bytes.lf ∉ line) :
    (line ++ Bytes.lf :: rest).idxOf? Bytes.lf = some line.length := by
  induction line with
  | nil => rfl
  | cons b line ih =>
    obtain ⟨hb, hline⟩ := not_or.mp fun hm => h (List.mem_cons.mpr hm)
    have hne : (b == Bytes.lf) = false := by
      rw [beq_eq_false_iff_ne]
      exact fun he => hb he.symm
    rw [List.cons_append, List.idxOf?_cons, hne, ih hline]
    rfl

theorem line?_of_not_mem {buf : Bytes} (h : Bytes.lf ∉ buf) : line? buf = some .missing := by
  rw [line?, idxOf?_of_not_mem h]

/-- A line that is not empty is judged by its last byte. -/
theorem line?_concat {text : Bytes} {b : UInt8} (rest : Bytes) (h : Bytes.lf ∉ text ++ [b])
    (hlen : text.length + 2 < 2 ^ 64) :
    line? (text ++ [b] ++ Bytes.lf :: rest) =
      some (if b = Bytes.cr then .whole text (text.length + 2) else .malformed) := by
  have hindex : (text ++ [b]).length = text.length + 1 := by simp
  have hlast : (text ++ [b] ++ Bytes.lf :: rest)[text.length]? = some b := by simp
  have htext : slice? (text ++ [b] ++ Bytes.lf :: rest) 0 text.length = some text := by
    rw [List.append_assoc]
    exact slice?_front text _
  have hadd : add? (text.length + 1) 1 = some (text.length + 2) := add?_eq hlen
  rw [line?, idxOf?_line rest h, hindex]
  simp only [Nat.zero_lt_succ, if_true, sub?_eq (Nat.le_add_left 1 text.length), Nat.add_sub_cancel,
    Option.bind_eq_bind, Option.bind_some, hlast]
  split
  · rw [htext, Option.bind_some, hadd]
    rfl
  · rfl

theorem line?_header {header : Bytes} (rest : Bytes) (h : Bytes.lf ∉ header)
    (hlen : (header ++ Bytes.crlf).length < 2 ^ 64) :
    line? (header ++ Bytes.crlf ++ rest) =
      some (.whole header (header ++ Bytes.crlf).length) := by
  have hsize : (header ++ Bytes.crlf).length = header.length + 2 := List.length_append
  have hline : Bytes.lf ∉ header ++ [Bytes.cr] := by
    rw [List.mem_append, not_or]
    exact ⟨h, by decide⟩
  have hassoc : header ++ Bytes.crlf ++ rest = header ++ [Bytes.cr] ++ Bytes.lf :: rest := by
    simp [Bytes.crlf]
  rw [hsize] at hlen ⊢
  rw [hassoc, line?_concat rest hline hlen, if_pos rfl]

theorem line?_malformed {line : Bytes} (rest : Bytes) (h : Bytes.lf ∉ line)
    (hcr : line.getLast? ≠ some Bytes.cr) (hlen : line.length + 1 < 2 ^ 64) :
    line? (line ++ Bytes.lf :: rest) = some .malformed := by
  rcases List.eq_nil_or_concat line with rfl | ⟨text, b, hconcat⟩
  · rfl
  · rw [List.concat_eq_append] at hconcat
    subst hconcat
    have hb : b ≠ Bytes.cr := by simpa using hcr
    rw [List.length_append, List.length_singleton] at hlen
    rw [line?_concat rest h hlen, if_neg hb]

theorem numeral_le {field : Bytes} {n : Int} (h : numeral? field = some n) : n.toNat < 2 ^ 63 := by
  have hmax := (numeral?_eq_some.mp h).le_max
  unfold Text.Numeral.int64Max at hmax
  omega

/-- The offsets behind a payload fit: a header that is in the buffer, and a length below 2 ^ 63. -/
theorem bulk?_eq (limits : Limits) (header rest : Bytes) {n : Int}
    (hlen : (header ++ rest).length < 2 ^ 62) (hn : n.toNat < 2 ^ 63) :
    bulk? limits (header ++ rest) n header.length =
      some (bulkFront limits (header ++ rest) rest n) := by
  rw [List.length_append] at hlen
  unfold bulk? bulkFront
  split_ifs with hnull hneg hlimit
  · rw [advance?_append]
    rfl
  · rfl
  · rfl
  have hstop : add? header.length n.toNat = some (header.length + n.toNat) := add?_eq (by omega)
  have hsize : add? (header.length + n.toNat) 2 = some (header.length + n.toNat + 2) :=
    add?_eq (by omega)
  simp only [hstop, hsize, Option.bind_eq_bind, Option.bind_some, List.length_append]
  split_ifs with hshort
  · -- The payload or its line end has not arrived.
    split
    · next data a b tail hs =>
      obtain ⟨rfl, hdata⟩ := Bytes.splitAt?_eq_some.mp hs
      simp only [List.length_append, List.length_cons] at hshort
      omega
    · rfl
  · obtain ⟨data, a, b, tail, rfl, hdata⟩ : ∃ data a b tail,
        rest = data ++ a :: b :: tail ∧ data.length = n.toNat := by
      have htail : 2 ≤ (rest.drop n.toNat).length := by
        rw [List.length_drop]
        omega
      match hd : rest.drop n.toNat, htail with
      | a :: b :: tail, _ =>
        refine ⟨rest.take n.toNat, a, b, tail, ?_, ?_⟩
        · rw [← hd, List.take_append_drop]
        · rw [List.length_take]
          omega
    have hs : Bytes.splitAt? n.toNat (data ++ a :: b :: tail) = some (data, a :: b :: tail) :=
      Bytes.splitAt?_eq_some.mpr ⟨rfl, hdata⟩
    have hend : slice? (header ++ (data ++ a :: b :: tail)) (header.length + n.toNat)
        (header.length + n.toNat + 2) = some [a, b] := by
      have hslice := slice?_append (header ++ data) [a, b] tail
      simpa [hdata, List.append_assoc, Nat.add_assoc] using hslice
    have hpayload : slice? (data ++ a :: b :: tail) 0 n.toNat = some data := by
      rw [← hdata]
      exact slice?_front data _
    have hbehind : advance? (data ++ a :: b :: tail) n.toNat = some (a :: b :: tail) := by
      rw [← hdata]
      exact advance?_append data _
    have hrest : advance? (a :: b :: tail) 2 = some tail := advance?_append [a, b] tail
    have hcrlf : [a, b] = Bytes.crlf ↔ a = Bytes.cr ∧ b = Bytes.lf := by simp [Bytes.crlf]
    rw [hs, hend]
    simp only [Option.bind_some, hcrlf]
    split_ifs
    · rw [advance?_append, Option.bind_some, hpayload, Option.bind_some, hbehind, Option.bind_some,
        hrest]
      rfl
    · rfl

theorem field?_eq (limits : Limits) (depth : Nat) (header rest text : Bytes)
    (hlen : (header ++ rest).length < 2 ^ 62) :
    field? limits depth (header ++ rest) header.length text =
      some (lineFront limits depth (header ++ rest) rest text) := by
  cases text with
  | nil => rfl
  | cons marker field =>
    rw [field?, lineFront, advance?_append]
    split_ifs
    · rfl
    · rfl
    · cases numeral? field <;> rfl
    · cases hn : numeral? field with
      | some n => exact bulk?_eq limits header rest hlen (numeral_le hn)
      | none => rfl
    · cases numeral? field <;> rfl
    · rfl

/-- On a buffer below 2 ^ 62 bytes no offset leaves its word or the buffer, and the front that is found by
offsets is the one that is there. -/
theorem front?_eq (limits : Limits) (depth : Nat) {buf : Bytes} (hlen : buf.length < 2 ^ 62) :
    front? limits depth buf = some (front limits depth buf) := by
  rcases line_cases buf with hno | ⟨line, rest, rfl, hline⟩
  · rw [front?, line?_of_not_mem hno, front_of_not_mem limits depth hno]
    rfl
  have hshort : line.length + 1 < 2 ^ 64 := by
    rw [List.length_append, List.length_cons] at hlen
    omega
  rw [front_line limits depth rest hline, front?]
  by_cases hcr : line.getLast? = some Bytes.cr
  · obtain ⟨header, rfl⟩ := List.getLast?_eq_some_iff.mp hcr
    have hheader : Bytes.lf ∉ header := fun hm => hline (List.mem_append_left _ hm)
    have hassoc : header ++ [Bytes.cr] ++ Bytes.lf :: rest = header ++ Bytes.crlf ++ rest := by
      simp [Bytes.crlf]
    have hsize : (header ++ Bytes.crlf).length < 2 ^ 64 := by
      rw [List.length_append, List.length_singleton] at hshort
      rw [List.length_append]
      exact hshort
    rw [hassoc] at hlen ⊢
    rw [if_pos hcr, List.dropLast_concat, line?_header rest hheader hsize]
    exact field?_eq limits depth (header ++ Bytes.crlf) rest header hlen
  · rw [if_neg hcr, line?_malformed rest hline hcr hshort]
    rfl

end RespClient.Reply
