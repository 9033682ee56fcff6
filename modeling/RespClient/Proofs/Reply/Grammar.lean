import RespClient.Proofs.Reply.Extension
import RespClient.Proofs.Text.Numeral

namespace RespClient.Reply

/-- The field of a header spells a number, each byte one character of it. -/
def Numeral (field : Bytes) (n : Int) : Prop := Text.Numeral.Spells (Text.Numeral.latin field) n

theorem numeral?_eq_some {field : Bytes} {n : Int} : numeral? field = some n ↔ Numeral field n :=
  Text.Numeral.int64?_eq_some

mutual

/-- The wire forms of a reply whose bulks are at most `bulk` bytes long and whose lists nest at most
`depth` levels deep. An empty list is a level, a null is none. -/
inductive Wire (bulk : Nat) : Nat → Reply → Bytes → Prop where
  | status {depth : Nat} {body : Bytes} (line : Bytes.lf ∉ body) :
      Wire bulk depth (.status (Text.Utf8.lenient body)) ('+'.toUInt8 :: body ++ Bytes.crlf)
  | error {depth : Nat} {body : Bytes} (line : Bytes.lf ∉ body) :
      Wire bulk depth (.error (Text.Utf8.lenient body)) ('-'.toUInt8 :: body ++ Bytes.crlf)
  | integer {depth : Nat} {field : Bytes} {n : Int} (number : Numeral field n) :
      Wire bulk depth (.integer n) (':'.toUInt8 :: field ++ Bytes.crlf)
  | bulk {depth : Nat} {field data : Bytes} (length : Numeral field data.length)
      (limit : data.length ≤ bulk) :
      Wire bulk depth (.bulk (some data))
        ('$'.toUInt8 :: field ++ Bytes.crlf ++ (data ++ Bytes.crlf))
  | nullBulk {depth : Nat} {field : Bytes} (null : Numeral field (-1)) :
      Wire bulk depth (.bulk none) ('$'.toUInt8 :: field ++ Bytes.crlf)
  | multi {depth : Nat} {field w : Bytes} {items : List Reply} (count : Numeral field items.length)
      (wires : Wires bulk depth items w) :
      Wire bulk (depth + 1) (.multi (some items)) ('*'.toUInt8 :: field ++ Bytes.crlf ++ w)
  | nullMulti {depth : Nat} {field : Bytes} (null : Numeral field (-1)) :
      Wire bulk depth (.multi none) ('*'.toUInt8 :: field ++ Bytes.crlf)

/-- Wire forms of several replies, one behind the other. -/
inductive Wires (bulk : Nat) : Nat → List Reply → Bytes → Prop where
  | nil {depth : Nat} : Wires bulk depth [] []
  | cons {depth : Nat} {r : Reply} {rs : List Reply} {w ws : Bytes} (head : Wire bulk depth r w)
      (tail : Wires bulk depth rs ws) : Wires bulk depth (r :: rs) (w ++ ws)

end

abbrev Acceptable (limits : Limits) (r : Reply) (w : Bytes) : Prop :=
  Wire limits.bulk limits.depth r w

theorem Numeral.lf_not_mem {field : Bytes} {n : Int} (h : Numeral field n) : Bytes.lf ∉ field := by
  intro hm
  have hc := h.signed.char (List.mem_map_of_mem (f := fun b : UInt8 => Char.ofNat b.toNat) hm)
  revert hc
  decide

theorem numeral_ofInt {n : Int} (hmin : Text.Numeral.int64Min ≤ n)
    (hmax : n ≤ Text.Numeral.int64Max) :
    Numeral (Bytes.ofInt n) n :=
  ⟨(Text.Numeral.ofInt_shortest n).1, hmin, hmax⟩

theorem front_header (limits : Limits) (depth : Nat) {header : Bytes} (rest : Bytes)
    (h : Bytes.lf ∉ header) :
    front limits depth (header ++ Bytes.crlf ++ rest) =
      lineFront limits depth (header ++ Bytes.crlf ++ rest) rest header := by
  have hline : Bytes.lf ∉ header ++ [Bytes.cr] := by
    rw [List.mem_append, not_or]
    exact ⟨h, by decide⟩
  have hassoc : header ++ Bytes.crlf ++ rest = header ++ [Bytes.cr] ++ Bytes.lf :: rest := by
    simp [Bytes.crlf]
  rw [hassoc, front_line limits depth rest hline, if_pos (by simp), List.dropLast_concat]

theorem lineFront_status (limits : Limits) (depth : Nat) (buf rest body : Bytes) :
    lineFront limits depth buf rest ('+'.toUInt8 :: body) =
      .value (.status (Text.Utf8.lenient body)) rest := by
  rw [lineFront, if_pos rfl]

theorem lineFront_error (limits : Limits) (depth : Nat) (buf rest body : Bytes) :
    lineFront limits depth buf rest ('-'.toUInt8 :: body) =
      .value (.error (Text.Utf8.lenient body)) rest := by
  rw [lineFront, if_neg (by decide), if_pos rfl]

theorem lineFront_integer (limits : Limits) (depth : Nat) (buf rest : Bytes) {field : Bytes}
    {n : Int} (h : Numeral field n) :
    lineFront limits depth buf rest (':'.toUInt8 :: field) = .value (.integer n) rest := by
  rw [lineFront, if_neg (by decide), if_neg (by decide), if_pos rfl, numeral?_eq_some.2 h]

theorem lineFront_bulk (limits : Limits) (depth : Nat) (buf rest : Bytes) {field : Bytes} {n : Int}
    (h : Numeral field n) :
    lineFront limits depth buf rest ('$'.toUInt8 :: field) = bulkFront limits buf rest n := by
  rw [lineFront, if_neg (by decide), if_neg (by decide), if_neg (by decide), if_pos rfl,
    numeral?_eq_some.2 h]

theorem lineFront_multi (limits : Limits) (depth : Nat) (buf rest : Bytes) {field : Bytes} {n : Int}
    (h : Numeral field n) :
    lineFront limits depth buf rest ('*'.toUInt8 :: field) = multiFront limits depth rest n := by
  rw [lineFront, if_neg (by decide), if_neg (by decide), if_neg (by decide), if_neg (by decide),
    if_pos rfl, numeral?_eq_some.2 h]

theorem bulkFront_data (limits : Limits) (buf rest : Bytes) {data : Bytes}
    (h : data.length ≤ limits.bulk) :
    bulkFront limits buf (data ++ Bytes.crlf ++ rest) data.length =
      .value (.bulk (some data)) rest := by
  have hs : Bytes.splitAt? data.length (data ++ Bytes.crlf ++ rest) =
      some (data, Bytes.cr :: Bytes.lf :: rest) :=
    Bytes.splitAt?_eq_some.2 ⟨by simp [Bytes.crlf], rfl⟩
  rw [bulkFront, if_neg (by omega), if_neg (by omega), Int.toNat_natCast, if_neg (by omega), hs]
  rfl

namespace Decoder

theorem settle_empty (limits : Limits) (r : Reply) (rest : Bytes) :
    settle ⟨limits, []⟩ r rest = (.reply r, ⟨limits, []⟩, rest) := rfl

theorem settle_last (limits : Limits) {f : Frame} (fs : List Frame) (r : Reply) (rest : Bytes)
    (h : f.missing ≤ 1) :
    settle ⟨limits, f :: fs⟩ r rest =
      settle ⟨limits, fs⟩ (.multi (some (r :: f.items).reverse)) rest := by
  rw [settle, settle, place, if_pos h]

theorem settle_next (limits : Limits) {f : Frame} (fs : List Frame) (r : Reply) (rest : Bytes)
    (h : ¬ f.missing ≤ 1) :
    settle ⟨limits, f :: fs⟩ r rest =
      Decoder.decode ⟨limits, { f with missing := f.missing - 1, items := r :: f.items } :: fs⟩
        rest := by
  rw [settle, place, if_neg h]

theorem decode_line {d : Decoder} {header rest : Bytes} {r : Reply} (hl : Bytes.lf ∉ header)
    (h : ∀ buf, lineFront d.limits d.stack.length buf rest header = .value r rest) :
    d.decode (header ++ Bytes.crlf ++ rest) = d.settle r rest := by
  refine decode_of_value ?_
  rw [front_header _ _ _ hl, h]

theorem lf_not_mem_cons {marker : UInt8} {field : Bytes} (hm : Bytes.lf ≠ marker)
    (hf : Bytes.lf ∉ field) : Bytes.lf ∉ marker :: field := by
  rw [List.mem_cons, not_or]
  exact ⟨hm, hf⟩

mutual

/-- A wire form at the front of the buffer is taken off and its reply placed. -/
theorem decode_wire {bulk : Nat} : ∀ {depth : Nat} {r : Reply} {w : Bytes}, Wire bulk depth r w →
    ∀ (d : Decoder) (rest : Bytes), d.limits.bulk = bulk →
      d.stack.length + depth = d.limits.depth → d.decode (w ++ rest) = d.settle r rest
  | _, _, _, .status hl, d, rest, _, _ =>
    decode_line (lf_not_mem_cons (by decide) hl) fun _ => lineFront_status _ _ _ _ _
  | _, _, _, .error hl, d, rest, _, _ =>
    decode_line (lf_not_mem_cons (by decide) hl) fun _ => lineFront_error _ _ _ _ _
  | _, _, _, .integer hn, d, rest, _, _ =>
    decode_line (lf_not_mem_cons (by decide) hn.lf_not_mem) fun _ => lineFront_integer _ _ _ _ hn
  | _, _, _, .nullBulk hn, d, rest, _, _ =>
    decode_line (lf_not_mem_cons (by decide) hn.lf_not_mem) fun _ => lineFront_bulk _ _ _ _ hn
  | _, _, _, .nullMulti hn, d, rest, _, _ =>
    decode_line (lf_not_mem_cons (by decide) hn.lf_not_mem) fun _ => lineFront_multi _ _ _ _ hn
  | _, _, _, @Wire.bulk _ _ field data hn hle, d, rest, hb, _ => by
    have hfront : front d.limits d.stack.length
        ('$'.toUInt8 :: field ++ Bytes.crlf ++ (data ++ Bytes.crlf ++ rest)) =
        .value (.bulk (some data)) rest := by
      rw [front_header _ _ _ (lf_not_mem_cons (by decide) hn.lf_not_mem),
        lineFront_bulk _ _ _ _ hn, bulkFront_data _ _ _ (hb ▸ hle)]
    rw [List.append_assoc]
    exact decode_of_value hfront
  | _, _, _, @Wire.multi _ _ field w items hn hw, d, rest, hb, hd => by
    have hfront : front d.limits d.stack.length
        ('*'.toUInt8 :: field ++ Bytes.crlf ++ (w ++ rest)) =
        multiFront d.limits d.stack.length (w ++ rest) items.length := by
      rw [front_header _ _ _ (lf_not_mem_cons (by decide) hn.lf_not_mem),
        lineFront_multi _ _ _ _ hn]
    rw [List.append_assoc]
    cases items with
    | nil =>
      cases hw
      rw [multiFront, if_neg (by simp), if_neg (by simp), if_neg (by omega),
        if_pos (by simp)] at hfront
      exact decode_of_value hfront
    | cons r rs =>
      rw [multiFront, if_neg (by simp; omega), if_neg (by simp; omega), if_neg (by omega),
        if_neg (by simp; omega)] at hfront
      rw [decode_of_opens hfront]
      exact decode_wires hw d.limits ⟨_, _, []⟩ d.stack rest (by simp) (by simp) hb (by omega)

/-- The wire forms of all elements that a list still misses complete it. -/
theorem decode_wires {bulk : Nat} : ∀ {depth : Nat} {rs : List Reply} {w : Bytes},
    Wires bulk depth rs w → ∀ (limits : Limits) (f : Frame) (fs : List Frame) (rest : Bytes),
      rs ≠ [] → f.missing = rs.length → limits.bulk = bulk →
      fs.length + 1 + depth = limits.depth →
      Decoder.decode ⟨limits, f :: fs⟩ (w ++ rest) =
        settle ⟨limits, fs⟩ (.multi (some (f.items.reverse ++ rs))) rest
  | _, _, _, .nil, _, _, _, _, hne, _, _, _ => absurd rfl hne
  | _, _, _, @Wires.cons _ _ r rs w ws hw hws, limits, f, fs, rest, _, hm, hb,
      hd => by
    rw [List.append_assoc, decode_wire hw ⟨limits, f :: fs⟩ (ws ++ rest) hb (by simpa using hd)]
    cases rs with
    | nil =>
      cases hws
      rw [settle_last _ _ _ _ (by simp [hm])]
      simp
    | cons r' rs =>
      rw [settle_next _ _ _ _ (by simp [hm])]
      rw [decode_wires hws limits _ fs rest (by simp) (by simp [hm]) hb hd]
      simp

end

end Decoder

/-- What may be taken off a buffer: the wire form of a value, or the header of a list that may
open. -/
inductive Taken (limits : Limits) (depth : Nat) : Bytes → Front → Prop where
  | value {r : Reply} {w tail : Bytes} (wire : Wire limits.bulk (limits.depth - depth) r w) :
      Taken limits depth (w ++ tail) (.value r tail)
  | opens {field tail : Bytes} {n : Nat} (count : Numeral field n) (positive : 0 < n)
      (level : depth < limits.depth) :
      Taken limits depth ('*'.toUInt8 :: field ++ Bytes.crlf ++ tail) (.opens n tail)
  | incomplete {buf : Bytes} : Taken limits depth buf .incomplete
  | malformed {buf tail : Bytes} {m : Malformed} : Taken limits depth buf (.malformed m tail)

theorem taken_bulk {limits : Limits} {depth : Nat} (buf rest : Bytes) {field : Bytes} {n : Int}
    (hnum : Numeral field n) :
    Taken limits depth ('$'.toUInt8 :: field ++ Bytes.crlf ++ rest)
      (bulkFront limits buf rest n) := by
  unfold bulkFront
  split_ifs with hnull hneg hlimit
  · subst hnull
    exact .value (.nullBulk hnum)
  · exact .malformed
  · exact .malformed
  · split
    · next data a b tail hs =>
      obtain ⟨rfl, hlength⟩ := Bytes.splitAt?_eq_some.1 hs
      split_ifs with hend
      · obtain ⟨rfl, rfl⟩ := hend
        have hn : n = data.length := by omega
        subst hn
        have hw : Taken limits depth
            ('$'.toUInt8 :: field ++ Bytes.crlf ++ (data ++ Bytes.crlf) ++ tail)
            (.value (.bulk (some data)) tail) := .value (.bulk hnum (by omega))
        simpa [Bytes.crlf] using hw
      · exact .malformed
    · exact .incomplete

theorem taken_multi {limits : Limits} {depth : Nat} (rest : Bytes) {field : Bytes} {n : Int}
    (hnum : Numeral field n) :
    Taken limits depth ('*'.toUInt8 :: field ++ Bytes.crlf ++ rest)
      (multiFront limits depth rest n) := by
  unfold multiFront
  split_ifs with hnull hneg hdepth hempty
  · subst hnull
    exact .value (.nullMulti hnum)
  · exact .malformed
  · exact .malformed
  · subst hempty
    -- an empty list is a level, too
    have hlevel : limits.depth - depth = limits.depth - depth - 1 + 1 := by omega
    have hw : Wire limits.bulk (limits.depth - depth) (.multi (some []))
        ('*'.toUInt8 :: field ++ Bytes.crlf ++ []) := by
      rw [hlevel]
      exact .multi hnum .nil
    rw [List.append_nil] at hw
    exact .value hw
  · have hn : ((n.toNat : Nat) : Int) = n := by omega
    exact .opens (by rw [hn]; exact hnum) (by omega) (by omega)

theorem taken_line (limits : Limits) (depth : Nat) (buf rest : Bytes) {header : Bytes}
    (hl : Bytes.lf ∉ header) :
    Taken limits depth (header ++ Bytes.crlf ++ rest) (lineFront limits depth buf rest header) := by
  cases header with
  | nil => exact .malformed
  | cons marker field =>
    have hfield : Bytes.lf ∉ field := fun hm => hl (List.mem_cons_of_mem _ hm)
    have hnumeral : ∀ n, numeral? field = some n → Numeral field n := fun n => numeral?_eq_some.1
    rw [lineFront]
    split_ifs with hmark hmark hmark hmark hmark
    · subst hmark
      exact .value (.status hfield)
    · subst hmark
      exact .value (.error hfield)
    · subst hmark
      cases hn : numeral? field with
      | some n => exact .value (.integer (hnumeral n hn))
      | none => exact .malformed
    · subst hmark
      cases hn : numeral? field with
      | some n => exact taken_bulk buf rest (hnumeral n hn)
      | none => exact .malformed
    · subst hmark
      cases hn : numeral? field with
      | some n => exact taken_multi rest (hnumeral n hn)
      | none => exact .malformed
    · exact .malformed

/-- Whatever stands at the front of a buffer is taken off by the rules. -/
theorem taken_front (limits : Limits) (depth : Nat) (buf : Bytes) :
    Taken limits depth buf (front limits depth buf) := by
  rcases line_cases buf with hno | ⟨line, rest, rfl, hline⟩
  · rw [front_of_not_mem _ _ hno]
    exact .incomplete
  · rw [front_line _ _ _ hline]
    by_cases hcr : line.getLast? = some Bytes.cr
    · obtain ⟨header, rfl⟩ := List.getLast?_eq_some_iff.1 hcr
      rw [if_pos hcr, List.dropLast_concat]
      have ht := taken_line limits depth (header ++ [Bytes.cr] ++ Bytes.lf :: rest) rest
        fun hm => hline (List.mem_append_left [Bytes.cr] hm)
      simpa [Bytes.crlf] using ht
    · rw [if_neg hcr]
      exact .malformed

theorem wire_of_front {limits : Limits} {depth : Nat} {buf tail : Bytes} {r : Reply}
    (h : front limits depth buf = .value r tail) :
    ∃ w, buf = w ++ tail ∧ Wire limits.bulk (limits.depth - depth) r w := by
  have ht := taken_front limits depth buf
  rw [h] at ht
  cases ht with
  | value wire => exact ⟨_, rfl, wire⟩

theorem header_of_front {limits : Limits} {depth : Nat} {buf tail : Bytes} {n : Nat}
    (h : front limits depth buf = .opens n tail) :
    ∃ field, buf = '*'.toUInt8 :: field ++ Bytes.crlf ++ tail ∧ Numeral field n ∧ 0 < n ∧
      depth < limits.depth := by
  have ht := taken_front limits depth buf
  rw [h] at ht
  cases ht with
  | opens count positive level => exact ⟨_, rfl, count, positive, level⟩

/-- What open lists still ask for once the value `r` is finished: the wire forms of the elements
that the innermost one misses, and then the same of the others. Together they make up `whole`. -/
inductive Closes (limits : Limits) : List Frame → Reply → Reply → Bytes → Prop where
  | done (r : Reply) : Closes limits [] r r []
  | close {f : Frame} {fs : List Frame} {r whole : Reply} {items : List Reply} {w ws : Bytes}
      (missing : max 1 f.missing = items.length + 1)
      (wires : Wires limits.bulk (limits.depth - (fs.length + 1)) items w)
      (outer : Closes limits fs (.multi (some (f.items.reverse ++ r :: items))) whole ws) :
      Closes limits (f :: fs) r whole (w ++ ws)

/-- A value that completes the innermost list leaves what the others ask for. -/
theorem Closes.last {limits : Limits} {f : Frame} {fs : List Frame} {r whole : Reply} {ws : Bytes}
    (hm : f.missing ≤ 1) (h : Closes limits fs (.multi (some (r :: f.items).reverse)) whole ws) :
    Closes limits (f :: fs) r whole ws := by
  rw [List.reverse_cons] at h
  have hone : max 1 f.missing = ([] : List Reply).length + 1 := by rw [List.length_nil]; omega
  exact .close hone .nil h

/-- A value that completes all open lists needs no more bytes. -/
theorem closes_of_place (limits : Limits) {r whole : Reply} {stack stack' : List Frame}
    (h : place r stack = (stack', some whole)) : stack' = [] ∧ Closes limits stack r whole [] := by
  induction stack generalizing r with
  | nil =>
    cases h
    exact ⟨rfl, .done _⟩
  | cons f fs ih =>
    rw [place] at h
    split at h
    · next hm =>
      obtain ⟨hs, hc⟩ := ih h
      exact ⟨hs, hc.last hm⟩
    · cases h

/-- A value that leaves a list open, with the wire form of the next value and what is asked for
behind it. -/
theorem closes_of_place_none {limits : Limits} {r r' whole : Reply} {stack stack' : List Frame}
    {w ws : Bytes} (h : place r stack = (stack', none))
    (hw : Wire limits.bulk (limits.depth - stack'.length) r' w)
    (hc : Closes limits stack' r' whole ws) : Closes limits stack r whole (w ++ ws) := by
  induction stack generalizing r with
  | nil => cases h
  | cons f fs ih =>
    rw [place] at h
    split at h
    · next hm => exact (ih h).last hm
    · next hm =>
      cases h
      cases hc with
      | @close _ _ _ _ items w₁ w₂ hmissing hwires houter =>
        rw [← List.append_assoc]
        have hone : max 1 f.missing = (r' :: items).length + 1 := by
          rw [List.length_cons]
          dsimp only at hmissing
          omega
        exact .close hone (.cons hw hwires) (by simpa using houter)

namespace Decoder

/-- What was decoded is the wire form of a first value and all that the open lists asked for. -/
theorem wire_of_decode {d d' : Decoder} {buf rest : Bytes} {whole : Reply}
    (h : d.decode buf = (.reply whole, d', rest)) :
    d' = ⟨d.limits, []⟩ ∧ ∃ r w ws, buf = w ++ ws ++ rest ∧
      Wire d.limits.bulk (d.limits.depth - d.stack.length) r w ∧
      Closes d.limits d.stack r whole ws := by
  fun_induction Decoder.decode d buf with
  | case1 => cases h
  | case2 => cases h
  | case3 d buf n tail hf ih =>
    obtain ⟨hd', r, w, ws, hrest, hw, hc⟩ := ih h
    obtain ⟨field, hbuf, hnum, hpos, hdepth⟩ := header_of_front hf
    refine ⟨hd', ?_⟩
    cases hc with
    | @close _ _ r _ items w₁ w₂ hmissing hwires houter =>
      have hn : n = (r :: items).length := by
        rw [List.length_cons]
        dsimp only at hmissing
        omega
      have hlevel : d.limits.depth - d.stack.length =
          d.limits.depth - (d.stack.length + 1) + 1 := by omega
      refine ⟨.multi (some (r :: items)), '*'.toUInt8 :: field ++ Bytes.crlf ++ (w ++ w₁), w₂,
        by simp [hbuf, hrest], ?_, houter⟩
      rw [hlevel]
      exact .multi (hn ▸ hnum) (.cons hw hwires)
  | case4 d buf r tail hf stack whole' hp =>
    cases h
    obtain ⟨w, hbuf, hw⟩ := wire_of_front hf
    obtain ⟨rfl, hc⟩ := closes_of_place d.limits hp
    exact ⟨rfl, r, w, [], by simp [hbuf], hw, hc⟩
  | case5 d buf r tail hf stack hp ih =>
    obtain ⟨hd', r', w', ws', hrest, hw', hc'⟩ := ih h
    obtain ⟨w, hbuf, hw⟩ := wire_of_front hf
    exact ⟨hd', r, w, w' ++ ws', by simp [hbuf, hrest], hw, closes_of_place_none hp hw' hc'⟩

theorem decode_acceptable {limits : Limits} {r : Reply} {w : Bytes} (h : Acceptable limits r w)
    (rest : Bytes) : Decoder.decode ⟨limits, []⟩ (w ++ rest) = (.reply r, ⟨limits, []⟩, rest) := by
  rw [decode_wire h ⟨limits, []⟩ rest rfl (Nat.zero_add _), settle_empty]

/-- A fresh decoder yields nothing but the replies whose wire forms the buffer starts with. -/
theorem acceptable_of_decode {limits : Limits} {d : Decoder} {buf rest : Bytes} {r : Reply}
    (h : Decoder.decode ⟨limits, []⟩ buf = (.reply r, d, rest)) :
    d = ⟨limits, []⟩ ∧ ∃ w, buf = w ++ rest ∧ Acceptable limits r w := by
  obtain ⟨hd, r', w, ws, hbuf, hw, hc⟩ := wire_of_decode h
  cases hc
  exact ⟨hd, w, by simpa using hbuf, hw⟩

theorem decode_malformed_append {d d' : Decoder} {buf rest : Bytes} {m : Malformed}
    (h : d.decode buf = (.malformed m, d', rest)) (more : Bytes) :
    d.decode (buf ++ more) = (.malformed m, d', rest ++ more) := by
  rw [decode_append, h]

end Decoder

/-- The decoder accepts the grammar: a fresh one yields `r` and leaves `rest` if and only if the
buffer is a wire form of `r` and then `rest`, which no other reply and no other rest can be. Where
it finds the bytes malformed, no continuation of them begins with a wire form. -/
theorem decode_accepts_grammar (limits : Limits) (buf : Bytes) :
    (∀ r rest, (∃ d, Decoder.decode ⟨limits, []⟩ buf = (.reply r, d, rest)) ↔
      ∃ w, buf = w ++ rest ∧ Acceptable limits r w) ∧
    (∀ r r' w w' rest rest', Acceptable limits r w → Acceptable limits r' w' → buf = w ++ rest →
      buf = w' ++ rest' → r = r' ∧ w = w' ∧ rest = rest') ∧
    ∀ m d rest, Decoder.decode ⟨limits, []⟩ buf = (.malformed m, d, rest) →
      ∀ more r w tail, Acceptable limits r w → buf ++ more ≠ w ++ tail := by
  refine ⟨?_, ?_, ?_⟩
  · intro r rest
    constructor
    · rintro ⟨d, h⟩
      exact (Decoder.acceptable_of_decode h).2
    · rintro ⟨w, rfl, h⟩
      exact ⟨_, Decoder.decode_acceptable h rest⟩
  · rintro r r' w w' rest rest' h h' rfl heq
    have hd := Decoder.decode_acceptable h rest
    rw [heq, Decoder.decode_acceptable h' rest'] at hd
    cases hd
    exact ⟨rfl, List.append_cancel_right heq, rfl⟩
  · intro m d rest hm more r w tail h heq
    have hd := Decoder.decode_malformed_append hm more
    rw [heq, Decoder.decode_acceptable h tail] at hd
    cases hd

end RespClient.Reply
