namespace RespClient.Text.Numeral

def digit? (c : Char) : Option Nat :=
  if '0' ≤ c ∧ c ≤ '9' then some (c.toNat - 48) else none

/-- The value of digits that continue `n`. -/
def continue? (n : Nat) : List Char → Option Nat
  | [] => some n
  | c :: cs => (digit? c).bind fun d => continue? (10 * n + d) cs

/-- The value of one or more digits. -/
def digits? : List Char → Option Nat
  | [] => none
  | cs => continue? 0 cs

/-- A value without sign or with a plus, at most `bound`. -/
def nat? (bound : Nat) (cs : List Char) : Option Nat :=
  (match cs with
    | '+' :: ds => digits? ds
    | ds => digits? ds).filter (· ≤ bound)

def int64Min : Int := -0x8000000000000000

def int64Max : Int := 0x7FFFFFFFFFFFFFFF

/-- A value with a sign or without one. -/
def signed? : List Char → Option Int
  | '-' :: ds => (digits? ds).map fun n : Nat => -(n : Int)
  | '+' :: ds => (digits? ds).map fun n : Nat => (n : Int)
  | ds => (digits? ds).map fun n : Nat => (n : Int)

/-- A signed value of 64 bits. -/
def int64? (cs : List Char) : Option Int :=
  (signed? cs).filter fun n => int64Min ≤ n && n ≤ int64Max

end RespClient.Text.Numeral
