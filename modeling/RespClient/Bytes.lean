namespace RespClient

abbrev Bytes := List UInt8

namespace Bytes

/-- Carriage return. -/
def cr : UInt8 := 13

/-- Line feed. -/
def lf : UInt8 := 10

/-- The line end of the wire format. -/
def crlf : Bytes := [cr, lf]

/-- The UTF-8 bytes of a text. -/
def ofText (s : String) : Bytes := s.toList.flatMap String.utf8EncodeChar

/-- The decimal digits of a number. -/
def ofNat (n : Nat) : Bytes := ofText (toString n)

/-- The shortest decimal form of an integer. -/
def ofInt (n : Int) : Bytes := ofText (toString n)

/-- The first `n` bytes and the rest, `none` when fewer are there. -/
def splitAt? (n : Nat) (bs : Bytes) : Option (Bytes × Bytes) :=
  if (bs.take n).length = n then some (bs.take n, bs.drop n) else none

theorem splitAt?_eq_some {n : Nat} {bs front rest : Bytes} :
    splitAt? n bs = some (front, rest) ↔ bs = front ++ rest ∧ front.length = n := by
  unfold splitAt?
  constructor
  · intro h
    split at h
    · next hl =>
      simp only [Option.some.injEq, Prod.mk.injEq] at h
      obtain ⟨rfl, rfl⟩ := h
      exact ⟨(List.take_append_drop n bs).symm, hl⟩
    · simp at h
  · rintro ⟨rfl, rfl⟩
    simp

theorem splitAt?_eq_none {n : Nat} {bs : Bytes} : splitAt? n bs = none ↔ bs.length < n := by
  unfold splitAt?
  split
  · next h => simp only [List.length_take] at h; simp; omega
  · next h => simp only [List.length_take] at h; simp; omega

end Bytes

end RespClient
