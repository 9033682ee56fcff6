import RespClient.Proofs.Command.Name
import RespClient.Proofs.Command.RoundTrip
import RespClient.Shell.Tokens

namespace RespClient.Shell

open Reply (Acceptable Decoder Limits Wires)
open Text (IsWord isAsciiBlank upper words)

def request (texts : List String) : Reply :=
  .multi (some (texts.map fun t => .bulk (some (Bytes.ofText t))))

/-- A decoder with these limits takes in a request of these texts: its counts are numbers of 64 bits,
and no text is longer than a bulk may be. -/
structure Admits (limits : Limits) (texts : List String) : Prop where
  level : 0 < limits.depth
  count : (texts.length : Int) ≤ Text.Numeral.int64Max
  bulk : ∀ t ∈ texts, (Bytes.ofText t).length ≤ limits.bulk
  length : ∀ t ∈ texts, ((Bytes.ofText t).length : Int) ≤ Text.Numeral.int64Max

variable {name : String} {rest texts : List String} {limits : Limits} {c : Command}

theorem isKeyless_iff : isKeyless name = true ↔ upper name ∈ keylessNames.names :=
  Text.NameTable.contains_iff

theorem exists_command (name : String) (rest : List String) :
    ∃ c, command? (name :: rest) = some c ∧ c.args = (words name ++ rest).map Arg.ofText ∧
      c.slot = if isKeyless name then none
        else rest.head?.map fun t => Cluster.hashSlot (Bytes.ofText t) := by
  cases rest with
  | nil =>
    refine ⟨_, rfl, ?_, ?_⟩
    · rw [List.append_nil]
      rfl
    · exact (ite_self _).symm
  | cons first rest =>
    by_cases hk : isKeyless name
    · refine ⟨_, rfl, ?_, ?_⟩
      · simp [hk, Command.ofName, Command.arg, Command.addArgs]
      · simp [hk, Command.ofName, Command.arg, Command.addArgs]
    · refine ⟨_, rfl, ?_, ?_⟩
      · simp [hk, Command.ofName, Command.key, Command.arg, Command.addArgs, Arg.ofText]
      · simp [hk, Command.ofName, Command.key, Command.addArgs]

/-- Each token is an argument of its own exactly if the first one is a word. -/
theorem words_append_eq_iff : words name ++ rest = name :: rest ↔ IsWord name := by
  constructor
  · intro h
    have hlength : (words name).length = 1 := by
      have hl := congrArg List.length h
      rw [List.length_append, List.length_cons] at hl
      omega
    obtain ⟨w, hw⟩ := List.length_eq_one_iff.mp hlength
    rw [hw, List.singleton_append, List.cons.injEq] at h
    exact h.1 ▸ Text.isWord_of_words_eq hw
  · intro h
    rw [h.words_eq, List.singleton_append]

theorem request_inj {ts : List String} : request texts = request ts ↔ texts = ts := by
  simp only [request, Reply.multi.injEq, Option.some.injEq]
  refine List.map_inj_right fun s t h => ?_
  simpa only [Reply.bulk.injEq, Option.some.injEq, Text.Utf8.ofText_inj] using h

theorem wires_texts {bulk depth : Nat} (nulls : NullFraming)
    (hbulk : ∀ t ∈ texts, (Bytes.ofText t).length ≤ bulk)
    (hlength : ∀ t ∈ texts, ((Bytes.ofText t).length : Int) ≤ Text.Numeral.int64Max) :
    Wires bulk depth (texts.map fun t => .bulk (some (Bytes.ofText t)))
      ((texts.map Arg.ofText).flatMap (Command.argFrame nulls)) := by
  induction texts with
  | nil => exact .nil
  | cons t ts ih =>
    obtain ⟨hb, hbs⟩ := List.forall_mem_cons.mp hbulk
    obtain ⟨hl, hls⟩ := List.forall_mem_cons.mp hlength
    rw [List.map_cons, List.map_cons, List.flatMap_cons]
    exact .cons (Reply.wire_bulkFrame hb hl) (ih hbs hls)

theorem Admits.acceptable (h : Admits limits texts) (hargs : c.args = texts.map Arg.ofText)
    (nulls : NullFraming) : Acceptable limits (request texts) (c.encode nulls) := by
  have hcount : Reply.Numeral (Bytes.ofNat c.args.length)
      (texts.map fun t => Reply.bulk (some (Bytes.ofText t))).length := by
    rw [hargs, List.length_map, List.length_map]
    exact Reply.numeral_ofNat h.count
  obtain ⟨depth, hdepth⟩ := Nat.exists_eq_succ_of_ne_zero (Nat.ne_of_gt h.level)
  rw [Acceptable, hdepth, Command.encode, hargs]
  rw [hargs] at hcount
  exact .multi hcount (wires_texts nulls h.bulk h.length)

theorem Admits.decode (h : Admits limits texts) (hargs : c.args = texts.map Arg.ofText)
    (nulls : NullFraming) (more : Bytes) :
    Decoder.decode ⟨limits, []⟩ (c.encode nulls ++ more) =
      (.reply (request texts), ⟨limits, []⟩, more) :=
  Decoder.decode_acceptable (h.acceptable hargs nulls) more

/-- For the tokens of a line the shell sends the words of the first one, and then each other one with
all its bytes. A decoder that takes in such a request reads it back, and it is the request of the
tokens themselves if and only if the first token is a word. Nothing at all is asked for if and only if
there is one token and nothing but blanks in it. The second token decides the slot, unless the table of
commands without a key has the first one. -/
theorem sends_words_then_tokens (name : String) (rest : List String) :
    ∃ c, command? (name :: rest) = some c ∧ c.args = (words name ++ rest).map Arg.ofText ∧
      (∀ limits nulls more, Admits limits (words name ++ rest) →
        Decoder.decode ⟨limits, []⟩ (c.encode nulls ++ more) =
          (.reply (request (words name ++ rest)), ⟨limits, []⟩, more)) ∧
      (request (words name ++ rest) = request (name :: rest) ↔ IsWord name) ∧
      (c.args = [] ↔ rest = [] ∧ ∀ ch ∈ name.toList, isAsciiBlank ch) ∧
      (upper name ∈ keylessNames.names → c.slot = none) ∧
      (upper name ∉ keylessNames.names →
        c.slot = rest.head?.map fun t => Cluster.hashSlot (Bytes.ofText t)) := by
  obtain ⟨c, hc, hargs, hslot⟩ := exists_command name rest
  refine ⟨c, hc, hargs, ?_, request_inj.trans words_append_eq_iff, ?_, ?_, ?_⟩
  · intro limits nulls more h
    exact h.decode hargs nulls more
  · rw [hargs, List.map_eq_nil_iff, List.append_eq_nil_iff, Text.words_eq_nil, and_comm]
  · intro h
    rw [hslot, if_pos (isKeyless_iff.mpr h)]
  · intro h
    rw [hslot, if_neg fun hk => h (isKeyless_iff.mp hk)]

/-- A key with a blank in it and an empty value are sent as they are. -/
theorem sends_words_then_tokens_quoted :
    ∃ c, command? ["set", "a b", ""] = some c ∧
      Decoder.decode {} (c.encode .emptyBulk ++ [42]) =
        (.reply (request ["set", "a b", ""]), {}, [42]) ∧
      c.slot = some (Cluster.hashSlot [97, 32, 98]) := by
  obtain ⟨c, hc, -, decode, -, -, -, keyed⟩ := sends_words_then_tokens "set" ["a b", ""]
  have hwords : words "set" ++ ["a b", ""] = ["set", "a b", ""] := by decide +kernel
  have hadmits : Admits {} (words "set" ++ ["a b", ""]) := by
    rw [hwords]
    exact ⟨by decide, by decide, by decide +kernel, by decide +kernel⟩
  have hread := decode {} .emptyBulk [42] hadmits
  rw [hwords] at hread
  have hkey : Bytes.ofText "a b" = [97, 32, 98] := by decide +kernel
  refine ⟨c, hc, hread, ?_⟩
  rw [keyed (by decide +kernel), ← hkey]
  rfl

/-- A first token that is empty is not sent at all, and one with a blank in it becomes two arguments. -/
theorem quoted_name_falls_apart :
    (∃ c, command? [""] = some c ∧
      Decoder.decode {} (c.encode .emptyBulk) = (.reply (request []), {}, [])) ∧
    (∃ c, command? ["a b", "k"] = some c ∧
      Decoder.decode {} (c.encode .emptyBulk) = (.reply (request ["a", "b", "k"]), {}, [])) ∧
    request [] ≠ request [""] ∧ request ["a", "b", "k"] ≠ request ["a b", "k"] := by
  have read {tokens texts : List String} {c : Command} (hc : command? tokens = some c)
      (hargs : c.args = texts.map Arg.ofText) (h : Admits {} texts) :
      ∃ c, command? tokens = some c ∧
        Decoder.decode {} (c.encode .emptyBulk) = (.reply (request texts), {}, []) := by
    have hd := h.decode hargs .emptyBulk []
    rw [List.append_nil] at hd
    exact ⟨c, hc, hd⟩
  refine ⟨read rfl (by decide +kernel) ⟨by decide, by decide, nofun, nofun⟩,
    read rfl (by decide +kernel) ⟨by decide, by decide, by decide +kernel, by decide +kernel⟩, ?_, ?_⟩
  · exact fun h => absurd (request_inj.mp h) (by decide)
  · exact fun h => absurd (request_inj.mp h) (by decide)

end RespClient.Shell
