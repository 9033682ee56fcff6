import RespClient.Proofs.Command.Recipe
import RespClient.Proofs.Reply.Grammar

namespace RespClient

namespace NullFraming

/-- What stands in a request for an argument. -/
def element : NullFraming → Option Bytes → Reply
  | _, some data => .bulk (some data)
  | .emptyBulk, none => .bulk (some [])
  | .nullBulk, none => .bulk none

def frame : NullFraming → Option Bytes → Bytes
  | _, some data => Command.bulkFrame data
  | .emptyBulk, none => Command.bulkFrame []
  | .nullBulk, none => '$'.toUInt8 :: Bytes.ofInt (-1) ++ Bytes.crlf

end NullFraming

def Recipe.request (p : Recipe) (nulls : NullFraming) : Reply :=
  .multi (some (p.arguments.map nulls.element))

/-- The request has no more arguments than a count can tell, and none is longer than a bulk may be.
-/
structure Recipe.Fits (p : Recipe) : Prop where
  count : (p.arguments.length : Int) ≤ Text.Numeral.int64Max
  length : ∀ data, some data ∈ p.arguments → data.length ≤ ({} : Reply.Limits).bulk

namespace Command

theorem intFrame_eq (n : Int) : intFrame n = bulkFrame (Bytes.ofInt n) := by
  unfold intFrame
  split
  · next h =>
    obtain ⟨m, rfl⟩ := Int.eq_ofNat_of_zero_le h.1
    have hm : m < 1024 := by omega
    simp [smallFrames, hm, ofInt_natCast]
  · rfl

theorem argFrame_eq (nulls : NullFraming) (a : Arg) : argFrame nulls a = nulls.frame a.bytes? := by
  cases a with
  | bytes data => cases nulls <;> rfl
  | int n => cases nulls <;> exact intFrame_eq n
  | null => cases nulls <;> rfl

theorem encode_eq (nulls : NullFraming) (c : Command) :
    c.encode nulls = '*'.toUInt8 :: Bytes.ofNat c.args.length ++ Bytes.crlf ++
      (c.args.map Arg.bytes?).flatMap nulls.frame := by
  rw [encode, List.flatMap_map]
  congr 2
  funext a
  exact argFrame_eq nulls a

end Command

namespace Reply

open Command

theorem numeral_ofNat {n : Nat} (h : (n : Int) ≤ Text.Numeral.int64Max) :
    Numeral (Bytes.ofNat n) n := by
  rw [← ofInt_natCast]
  refine numeral_ofInt ?_ h
  simp only [Text.Numeral.int64Min]
  omega

/-- A frame is the wire form of the element that stands for it. -/
theorem wire_bulkFrame {bulk depth : Nat} {data : Bytes} (h : data.length ≤ bulk)
    (hnum : (data.length : Int) ≤ Text.Numeral.int64Max) :
    Wire bulk depth (.bulk (some data)) (bulkFrame data) := by
  have hw : Wire bulk depth (.bulk (some data)) _ := .bulk (numeral_ofNat hnum) h
  simpa [bulkFrame] using hw

theorem wire_frame {limits : Limits} {depth : Nat} (nulls : NullFraming) {a : Option Bytes}
    (hlimit : (limits.bulk : Int) ≤ Text.Numeral.int64Max)
    (h : ∀ data, a = some data → data.length ≤ limits.bulk) :
    Wire limits.bulk depth (nulls.element a) (nulls.frame a) := by
  cases a with
  | some data =>
    have hle := h data rfl
    cases nulls <;> exact wire_bulkFrame hle (by omega)
  | none =>
    cases nulls with
    | emptyBulk => exact wire_bulkFrame (Nat.zero_le _) (by decide)
    | nullBulk => exact .nullBulk (numeral_ofInt (by decide) (by decide))

theorem wires_frames {limits : Limits} {depth : Nat} (nulls : NullFraming)
    {as : List (Option Bytes)} (hlimit : (limits.bulk : Int) ≤ Text.Numeral.int64Max)
    (h : ∀ data, some data ∈ as → data.length ≤ limits.bulk) :
    Wires limits.bulk depth (as.map nulls.element) (as.flatMap nulls.frame) := by
  induction as with
  | nil => exact .nil
  | cons a as ih =>
    rw [List.map_cons, List.flatMap_cons]
    refine .cons (wire_frame nulls hlimit fun data ha => h data (by simp [ha])) (ih ?_)
    intro data hd
    exact h data (List.mem_cons_of_mem _ hd)

theorem acceptable_encode {p : Recipe} (h : p.Fits) (nulls : NullFraming) :
    Acceptable {} (p.request nulls) (p.command.encode nulls) := by
  have hcount := h.count
  rw [encode_eq, p.args_command, Recipe.request]
  have hlength : p.command.args.length = (p.arguments.map nulls.element).length := by
    rw [List.length_map, ← p.args_command, List.length_map]
  rw [hlength]
  refine Wire.multi (numeral_ofNat ?_) (wires_frames nulls (by decide) h.length)
  rw [List.length_map]
  exact hcount

namespace Decoder

/-- So many replies read one after the other, if they are all there. -/
def take? (d : Decoder) (buf : Bytes) : Nat → Option (List Reply × Decoder × Bytes)
  | 0 => some ([], d, buf)
  | n + 1 =>
    match d.decode buf with
    | (.reply r, d', rest) => (d'.take? rest n).map fun x => (r :: x.1, x.2)
    | _ => none

theorem take?_wires {limits : Limits} {rs : List Reply} {w : Bytes}
    (h : Wires limits.bulk limits.depth rs w) (rest : Bytes) :
    take? ⟨limits, []⟩ (w ++ rest) rs.length = some (rs, ⟨limits, []⟩, rest) := by
  induction rs generalizing w with
  | nil =>
    cases h
    rfl
  | cons r rs ih =>
    cases h with
    | cons head tail =>
      rw [List.append_assoc, List.length_cons, take?, decode_acceptable head]
      simp only [ih tail, Option.map_some]

end Decoder

theorem wires_encode {ps : List (Recipe × NullFraming)} (h : ∀ q ∈ ps, q.1.Fits) :
    Wires ({} : Limits).bulk ({} : Limits).depth (ps.map fun q => q.1.request q.2)
      (ps.flatMap fun q => q.1.command.encode q.2) := by
  induction ps with
  | nil => exact .nil
  | cons q ps ih =>
    rw [List.map_cons, List.flatMap_cons]
    refine .cons (acceptable_encode (h q (by simp)) q.2) (ih ?_)
    intro p hp
    exact h p (List.mem_cons_of_mem _ hp)

/-- Requests sent one behind the other are read back one by one, each as the list of its arguments,
and what follows them is left as it is. The text of a number is a shortest one that spells it.
Requests with the same frame have the same arguments, nulls told apart from strings only as far as
their framing does. -/
theorem take?_encode (ps : List (Recipe × NullFraming)) (h : ∀ q ∈ ps, q.1.Fits) (rest : Bytes) :
    Decoder.take? {} ((ps.flatMap fun q => q.1.command.encode q.2) ++ rest) ps.length =
      some (ps.map fun q => q.1.request q.2, {}, rest) ∧
    (∀ n : Int, Text.Numeral.Signed (Text.Numeral.latin (Bytes.ofInt n)) n ∧
      ∀ field, Text.Numeral.Signed (Text.Numeral.latin field) n →
        (Bytes.ofInt n).length ≤ field.length) ∧
    ∀ q ∈ ps, ∀ q' ∈ ps, q.1.command.encode q.2 = q'.1.command.encode q'.2 →
      q.1.arguments.map q.2.element = q'.1.arguments.map q'.2.element := by
  refine ⟨?_, Text.Numeral.ofInt_shortest, ?_⟩
  · have ht := @Decoder.take?_wires {} _ _ (wires_encode h) rest
    rwa [List.length_map] at ht
  · intro q hq q' hq' heq
    have hd := Decoder.decode_acceptable (acceptable_encode (h q hq) q.2) []
    rw [heq, Decoder.decode_acceptable (acceptable_encode (h q' hq') q'.2) []] at hd
    have hr : q'.1.request q'.2 = q.1.request q.2 := by
      injection hd with hv
      injection hv
    injection hr with hr
    injection hr with hr
    exact hr.symm

/-- Two requests with line ends and markers in their arguments, numbers of all sizes and nulls in
either framing, before the beginning of a third one. -/
theorem take?_encode_mixed :
    let p : Recipe := ⟨"SET", [.key [13, 10, 36, 42], .arg (.nat 18446744073709551615), .arg .null]⟩
    let q : Recipe := ⟨"DEL x", [.argList [.int (-7), .null]]⟩
    p.Fits ∧ q.Fits ∧
    Decoder.take? {} (p.command.encode .emptyBulk ++ q.command.encode .nullBulk ++ [42, 49]) 2 =
      some ([p.request .emptyBulk, q.request .nullBulk], {}, [42, 49]) := by
  intro p q
  have hp : p.arguments = [some [83, 69, 84], some [13, 10, 36, 42],
      some [49, 56, 52, 52, 54, 55, 52, 52, 48, 55, 51, 55, 48, 57, 53, 53, 49, 54, 49, 53],
      none] := by
    subst p
    decide +kernel
  have hq : q.arguments = [some [68, 69, 76], some [120], some [50], some [45, 55], none] := by
    subst q
    decide +kernel
  have fp : p.Fits := by
    constructor <;> rw [hp]
    · decide
    · intro data hd
      simp only [List.mem_cons, Option.some.injEq, reduceCtorEq, List.not_mem_nil, or_false] at hd
      rcases hd with rfl | rfl | rfl <;> decide
  have fq : q.Fits := by
    constructor <;> rw [hq]
    · decide
    · intro data hd
      simp only [List.mem_cons, Option.some.injEq, reduceCtorEq, List.not_mem_nil, or_false] at hd
      rcases hd with rfl | rfl | rfl | rfl <;> decide
  have h := take?_encode [(p, .emptyBulk), (q, .nullBulk)] (by simp [fp, fq]) [42, 49]
  refine ⟨fp, fq, ?_⟩
  simpa using h.1

end Reply

end RespClient
