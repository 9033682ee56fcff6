namespace RespClient.Decimal

/-- A positive number m · 2^q with an interval of numbers that read as it. All three are counted in
units of a quarter of the last place; the ends belong to it iff `closed`. -/
structure Rounding where
  low : Nat
  mid : Nat
  high : Nat
  exponent : Int
  closed : Bool

/-- The numbers that round to the float with this exponent field and these fraction bits. -/
def Rounding.ofFields (exponent fraction : Nat) : Rounding :=
  if exponent = 0 then
    ⟨4 * fraction - 2, 4 * fraction, 4 * fraction + 2, -1076, fraction % 2 = 0⟩
  else
    let m := 0x10000000000000 + fraction
    ⟨if fraction = 0 ∧ 1 < exponent then 4 * m - 1 else 4 * m - 2, 4 * m, 4 * m + 2,
      (exponent : Int) - 1077, m % 2 = 0⟩

/-- A positive decimal: digits · 10^scale. -/
structure Digits where
  digits : Nat
  scale : Int

/-- Both sides of a comparison between `n` quarter units and `c` · 10^`s`, as whole numbers. -/
def Rounding.scaled (r : Rounding) (n c : Nat) (s : Int) : Nat × Nat :=
  (n * Nat.pow 2 r.exponent.toNat * Nat.pow 10 (-s).toNat,
    c * Nat.pow 2 (-r.exponent).toNat * Nat.pow 10 s.toNat)

def Rounding.contains (r : Rounding) (c : Nat) (s : Int) : Bool :=
  let (low, x) := r.scaled r.low c s
  let (high, _) := r.scaled r.high c s
  if r.closed then low ≤ x && x ≤ high else low < x && x < high

/-- The decimal exponent one above that of the number's first digit. -/
def Rounding.magnitude (r : Rounding) : Int :=
  let (v, unit) := r.scaled r.mid 1 (-400)
  ((toString (v / unit)).length : Int) - 400

/-- A number of `count` digits that was rounded up to the next power of ten has one digit too many. -/
def Digits.rounded (count c : Nat) (s : Int) : Digits :=
  if c = Nat.pow 10 count then ⟨c / 10, s + 1⟩ else ⟨c, s⟩

/-- The neighbour of the number with `count` digits that reads back, the nearer one first. -/
def Rounding.withDigits? (r : Rounding) (count : Nat) : Option Digits :=
  let s := r.magnitude - count
  let (v, unit) := r.scaled r.mid 1 s
  let c := v / unit
  let (near, far) := if 2 * (v - c * unit) < unit then (c, c + 1) else (c + 1, c)
  if r.contains near s then some (.rounded count near s)
  else if r.contains far s then some (.rounded count far s)
  else none

/-- The fewest digits that read back to the same number, of those the nearest. -/
def Rounding.shortest (r : Rounding) : Digits :=
  ((List.range 17).findSome? fun n => r.withDigits? (n + 1)).getD ⟨0, 0⟩

/-- Positional notation, with a point only where digits follow it. -/
def Digits.text (d : Digits) : String :=
  let digits := toString d.digits
  if 0 ≤ d.scale then digits ++ "".pushn '0' d.scale.toNat
  else
    let places := (-d.scale).toNat
    if digits.length ≤ places then "0." ++ "".pushn '0' (places - digits.length) ++ digits
    else
      let cs := digits.toList
      String.ofList (cs.take (cs.length - places)) ++ "." ++
        String.ofList (cs.drop (cs.length - places))

/-- The text of the float with these bits. -/
def ofFloatBits (bits : UInt64) : String :=
  let n := bits.toNat
  let negative := 0x8000000000000000 ≤ n
  let exponent := n / 0x10000000000000 % 2048
  let fraction := n % 0x10000000000000
  let sign := if negative then "-" else ""
  if exponent = 2047 then if fraction = 0 then sign ++ "inf" else "NaN"
  else if exponent = 0 ∧ fraction = 0 then sign ++ "0"
  else sign ++ (Rounding.ofFields exponent fraction).shortest.text

end RespClient.Decimal
