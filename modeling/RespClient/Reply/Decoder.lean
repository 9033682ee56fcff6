import RespClient.Reply

namespace RespClient.Reply

/-- The longest bulk and the deepest nesting that are accepted. -/
structure Limits where
  bulk : Nat := 512 * 1024 * 1024
  depth : Nat := 32
  deriving DecidableEq

/-- Why bytes are not a reply. -/
inductive Malformed where
  | lineEnd
  | emptyLine
  | marker (b : UInt8)
  | numeral (field : Bytes)
  | bulkLength (n : Int)
  | bulkLimit (n limit : Nat)
  | bulkEnd
  | multiSize (n : Int)
  | depth (limit : Nat)
  deriving DecidableEq

/-- A list whose elements are still arriving: its declared size, how many are missing, and those
that came, newest first. -/
structure Frame where
  size : Nat
  missing : Nat
  items : List Reply

/-- What stands at the front of the buffer, with the buffer after it is taken. -/
inductive Front where
  | incomplete
  | value (r : Reply) (rest : Bytes)
  | opens (size : Nat) (rest : Bytes)
  | malformed (m : Malformed) (rest : Bytes)

/-- A numeral of a header or an integer line. -/
def numeral? (field : Bytes) : Option Int :=
  Text.Numeral.int64? (field.map fun b => Char.ofNat b.toNat)

/-- The payload that a bulk header announces, and the line end behind it. -/
def bulkFront (limits : Limits) (buf rest : Bytes) (n : Int) : Front :=
  if n = -1 then .value (.bulk none) rest
  else if n < 0 then .malformed (.bulkLength n) buf
  else if limits.bulk < n.toNat then .malformed (.bulkLimit n.toNat limits.bulk) buf
  else
    match Bytes.splitAt? n.toNat rest with
    | some (data, a :: b :: tail) =>
      if a = Bytes.cr ∧ b = Bytes.lf then .value (.bulk (some data)) tail else .malformed .bulkEnd buf
    | _ => .incomplete

/-- A list header is taken off before its size is judged. -/
def multiFront (limits : Limits) (depth : Nat) (rest : Bytes) (n : Int) : Front :=
  if n = -1 then .value (.multi none) rest
  else if n < 0 then .malformed (.multiSize n) rest
  else if limits.depth ≤ depth then .malformed (.depth limits.depth) rest
  else if n = 0 then .value (.multi (some [])) rest
  else .opens n.toNat rest

/-- A complete line: `rest` follows it in `buf`. -/
def lineFront (limits : Limits) (depth : Nat) (buf rest : Bytes) : Bytes → Front
  | [] => .malformed .emptyLine buf
  | marker :: field =>
    if marker = '+'.toUInt8 then .value (.status (Text.Utf8.lenient field)) rest
    else if marker = '-'.toUInt8 then .value (.error (Text.Utf8.lenient field)) rest
    else if marker = ':'.toUInt8 then
      match numeral? field with
      | some n => .value (.integer n) rest
      | none => .malformed (.numeral field) buf
    else if marker = '$'.toUInt8 then
      match numeral? field with
      | some n => bulkFront limits buf rest n
      | none => .malformed (.numeral field) buf
    else if marker = '*'.toUInt8 then
      match numeral? field with
      | some n => multiFront limits depth rest n
      | none => .malformed (.numeral field) buf
    else .malformed (.marker marker) buf

/-- The next value or list header of the buffer, under `depth` open lists. -/
def front (limits : Limits) (depth : Nat) (buf : Bytes) : Front :=
  match buf.dropWhile (· != Bytes.lf) with
  | [] => .incomplete
  | _ :: rest =>
    let line := buf.takeWhile (· != Bytes.lf)
    if line.getLast? = some Bytes.cr then lineFront limits depth buf rest line.dropLast
    else .malformed .lineEnd buf

/-- A finished value goes to the innermost open list, and closes each list that it completes. -/
def place (r : Reply) : List Frame → List Frame × Option Reply
  | [] => ([], some r)
  | f :: fs =>
    if f.missing ≤ 1 then place (.multi (some (r :: f.items).reverse)) fs
    else ({ f with missing := f.missing - 1, items := r :: f.items } :: fs, none)

/-- Reads replies off a buffer that fills as bytes arrive. The elements of a list are taken as they arrive and
kept on a stack of open lists, so a long reply that arrives in many parts is walked once. -/
structure Decoder where
  limits : Limits := {}
  stack : List Frame := []

inductive Verdict where
  | more
  | reply (r : Reply)
  | malformed (m : Malformed)

/-- What is left behind a value or a header. -/
def Front.rest? : Front → Option Bytes
  | value _ rest | opens _ rest => some rest
  | _ => none

theorem length_dropWhile_lt {buf rest : Bytes} {b : UInt8} {p : UInt8 → Bool}
    (h : buf.dropWhile p = b :: rest) : rest.length < buf.length := by
  have hs := (List.dropWhile_sublist (l := buf) p).length_le
  rw [h, List.length_cons] at hs
  omega

theorem bulkFront_length {limits : Limits} {buf rest rest' : Bytes} {n : Int}
    (h : (bulkFront limits buf rest n).rest? = some rest') : rest'.length ≤ rest.length := by
  unfold bulkFront at h
  split at h
  · cases h; exact Nat.le_refl _
  · split at h
    · cases h
    · split at h
      · cases h
      · split at h
        · next data a b tail hs =>
          split at h
          · cases h
            rw [(Bytes.splitAt?_eq_some.1 hs).1, List.length_append, List.length_cons,
              List.length_cons]
            omega
          · cases h
        · cases h

theorem multiFront_length {limits : Limits} {depth : Nat} {rest rest' : Bytes} {n : Int}
    (h : (multiFront limits depth rest n).rest? = some rest') : rest'.length ≤ rest.length := by
  unfold multiFront at h
  (repeat' split at h) <;> cases h <;> exact Nat.le_refl _

theorem lineFront_length {limits : Limits} {depth : Nat} {buf rest line rest' : Bytes}
    (h : (lineFront limits depth buf rest line).rest? = some rest') :
    rest'.length ≤ rest.length := by
  unfold lineFront at h
  split at h
  · cases h
  · split at h
    · cases h; exact Nat.le_refl _
    · split at h
      · cases h; exact Nat.le_refl _
      · split at h
        · split at h
          · cases h; exact Nat.le_refl _
          · cases h
        · split at h
          · split at h
            · exact bulkFront_length h
            · cases h
          · split at h
            · split at h
              · exact multiFront_length h
              · cases h
            · cases h

/-- Each value or header that is taken shortens the buffer. -/
theorem front_length {limits : Limits} {depth : Nat} {buf rest : Bytes}
    (h : (front limits depth buf).rest? = some rest) : rest.length < buf.length := by
  unfold front at h
  split at h
  · cases h
  · next b tail hd =>
    dsimp only at h
    split at h
    · exact Nat.lt_of_le_of_lt (lineFront_length h) (length_dropWhile_lt hd)
    · cases h

/-- Read one whole reply, or as much of it as has arrived. -/
def Decoder.decode (d : Decoder) (buf : Bytes) : Verdict × Decoder × Bytes :=
  match _h : front d.limits d.stack.length buf with
  | .incomplete => (.more, d, buf)
  | .malformed m rest => (.malformed m, { d with stack := [] }, rest)
  | .opens n rest => Decoder.decode { d with stack := ⟨n, n, []⟩ :: d.stack } rest
  | .value r rest =>
    match place r d.stack with
    | (stack, some whole) => (.reply whole, { d with stack := stack }, rest)
    | (stack, none) => Decoder.decode { d with stack := stack } rest
termination_by buf.length
decreasing_by
  · exact front_length (by rw [_h]; rfl)
  · exact front_length (by rw [_h]; rfl)

theorem Decoder.decode_length {d d' : Decoder} {buf rest : Bytes} {r : Reply}
    (h : d.decode buf = (.reply r, d', rest)) : rest.length < buf.length := by
  fun_induction Decoder.decode d buf with
  | case1 => simp at h
  | case2 => simp at h
  | case3 d buf n rest₁ hf ih =>
    exact Nat.lt_trans (ih h) (front_length (by rw [hf]; rfl))
  | case4 d buf r₁ rest₁ hf stack whole hp =>
    simp only [Prod.mk.injEq] at h
    obtain ⟨_, _, rfl⟩ := h
    exact front_length (by rw [hf]; rfl)
  | case5 d buf r₁ rest₁ hf stack hp ih =>
    exact Nat.lt_trans (ih h) (front_length (by rw [hf]; rfl))

/-- What a buffer yields before more bytes are needed. -/
structure Drained where
  replies : List Reply
  decoder : Decoder
  rest : Bytes
  failure : Option Malformed

/-- Read replies until the buffer holds no whole one, or holds something else. -/
def Decoder.drain (d : Decoder) (buf : Bytes) : Drained :=
  match _h : d.decode buf with
  | (.more, d', rest) => ⟨[], d', rest, none⟩
  | (.malformed m, d', rest) => ⟨[], d', rest, some m⟩
  | (.reply r, d', rest) =>
    let more := Decoder.drain d' rest
    { more with replies := r :: more.replies }
termination_by buf.length
decreasing_by exact Decoder.decode_length _h

def Decoder.inProgress (d : Decoder) : Bool := !d.stack.isEmpty

end RespClient.Reply
