import RespClient.Bytes

namespace RespClient.Text.Utf8

/-- A character under way: bytes still owed, the range of the next one, and its bits so far. -/
structure Partial where
  owed : Nat
  low : Nat
  high : Nat
  bits : Nat

inductive Lead where
  | whole (c : Char)
  | opens (p : Partial)
  | stray

/-- What a byte between characters begins. -/
def lead (b : UInt8) : Lead :=
  let n := b.toNat
  if n < 0x80 then .whole (Char.ofNat n)
  else if n < 0xC2 then .stray
  else if n < 0xE0 then .opens ⟨1, 0x80, 0xBF, n - 0xC0⟩
  else if n < 0xF0 then
    .opens ⟨2, if n = 0xE0 then 0xA0 else 0x80, if n = 0xED then 0x9F else 0xBF, n - 0xE0⟩
  else if n < 0xF5 then
    .opens ⟨3, if n = 0xF0 then 0x90 else 0x80, if n = 0xF4 then 0x8F else 0xBF, n - 0xF0⟩
  else .stray

/-- A continuation byte: the finished character, or what is still owed. -/
def Partial.take (p : Partial) (b : UInt8) : Lead :=
  if p.low ≤ b.toNat ∧ b.toNat ≤ p.high then
    let bits := p.bits * 64 + (b.toNat - 0x80)
    if p.owed ≤ 1 then .whole (Char.ofNat bits) else .opens ⟨p.owed - 1, 0x80, 0xBF, bits⟩
  else .stray

/-- The characters in order, `none` for each ill-formed stretch. -/
def piecesFrom : Option Partial → Bytes → List (Option Char)
  | none, [] => []
  | some _, [] => [none]
  | none, b :: bs =>
    match lead b with
    | .whole c => some c :: piecesFrom none bs
    | .opens p => piecesFrom (some p) bs
    | .stray => none :: piecesFrom none bs
  | some p, b :: bs =>
    match p.take b with
    | .whole c => some c :: piecesFrom none bs
    | .opens q => piecesFrom (some q) bs
    | .stray =>
      match lead b with
      | .whole c => none :: some c :: piecesFrom none bs
      | .opens q => none :: piecesFrom (some q) bs
      | .stray => none :: none :: piecesFrom none bs

/-- Bytes cut into characters and ill-formed stretches, each stretch the longest that some well-formed character
begins with. -/
def pieces (bs : Bytes) : List (Option Char) := piecesFrom none bs

/-- Every ill-formed stretch is read as U+FFFD. -/
def lenient (bs : Bytes) : String := String.ofList ((pieces bs).map fun c => c.getD '\uFFFD')

/-- Only well-formed bytes are a text. -/
def strict? (bs : Bytes) : Option String := ((pieces bs).mapM id).map String.ofList

end RespClient.Text.Utf8
