import Mathlib
import RespClient.Proofs.Reply.Chunking
import RespClient.Proofs.Text.Utf8
import RespClient.Shell.Layout

namespace RespClient

namespace Reply

/-- A reply without elements: a scalar, a null or the empty list. -/
def IsLeaf (r : Reply) : Prop := ∀ x xs, r ≠ .multi (some (x :: xs))

@[elab_as_elim]
theorem induct_lists {motive : Reply → Prop} (leaf : ∀ r, IsLeaf r → motive r)
    (list : ∀ x xs, (∀ r ∈ x :: xs, motive r) → motive (.multi (some (x :: xs)))) (r : Reply) :
    motive r := by
  match r with
  | .multi (some (x :: xs)) => exact list x xs fun r _ => induct_lists leaf list r
  | .status s => exact leaf _ (by simp [IsLeaf])
  | .error s => exact leaf _ (by simp [IsLeaf])
  | .integer n => exact leaf _ (by simp [IsLeaf])
  | .bulk data => exact leaf _ (by simp [IsLeaf])
  | .multi none => exact leaf _ (by simp [IsLeaf])
  | .multi (some []) => exact leaf _ (by simp [IsLeaf])
termination_by r
decreasing_by
  have := List.sizeOf_lt_of_mem ‹r ∈ x :: xs›
  simp only [multi.sizeOf_spec, Option.some.sizeOf_spec]
  omega

/-- Status and error texts are of one line each, at any depth. -/
inductive Inline : Reply → Prop
  | status {s} (line : '\n' ∉ s.toList) : Inline (.status s)
  | error {s} (line : '\n' ∉ s.toList) : Inline (.error s)
  | integer (n) : Inline (.integer n)
  | bulk (data) : Inline (.bulk data)
  | null : Inline (.multi none)
  | list {items} (inline : ∀ r ∈ items, Inline r) : Inline (.multi (some items))

mutual

theorem Wire.inline {bulk depth : Nat} {r : Reply} {w : Bytes} : Wire bulk depth r w → Inline r
  | .status h => .status (Text.Utf8.newline_not_mem_lenient h)
  | .error h => .error (Text.Utf8.newline_not_mem_lenient h)
  | .integer _ => .integer _
  | .bulk _ _ => .bulk _
  | .nullBulk _ => .bulk _
  | .multi _ h => .list h.inline
  | .nullMulti _ => .null

theorem Wires.inline {bulk depth : Nat} {rs : List Reply} {w : Bytes} :
    Wires bulk depth rs w → ∀ r ∈ rs, Inline r
  | .nil => by simp
  | .cons h hs => List.forall_mem_cons.mpr ⟨h.inline, hs.inline⟩

end

theorem inline_of_decode {limits : Limits} {d : Decoder} {buf rest : Bytes} {r : Reply}
    (h : Decoder.decode ⟨limits, []⟩ buf = (.reply r, d, rest)) : Inline r := by
  obtain ⟨-, w, -, hw⟩ := Decoder.acceptable_of_decode h
  exact hw.inline

end Reply

namespace Shell

open Reply (IsLeaf Inline induct_lists)

/-- Where an element is seen: its number in a list of some width, and whether the line is its first. -/
structure Place where
  width : Nat
  index : Nat
  first : Bool

def Place.lead (p : Place) : List Char := (rightAligned p.width p.index ++ ") ").toList

/-- The number stands on the first line only; the column is blank below it. -/
def Place.text (p : Place) : List Char :=
  if p.first then p.lead else List.replicate p.lead.length ' '

/-- A reply without elements, and its places in the lists around it, the outermost one first. -/
structure Leaf where
  path : List Place
  reply : Reply

def Leaf.text (l : Leaf) : List Char := (layout false l.reply).toList

def Leaf.line (l : Leaf) : List Char := l.path.flatMap Place.text ++ l.text

def Leaf.within (p : Place) (l : Leaf) : Leaf := { l with path := p :: l.path }

/-- The leaves of an element as leaves of the list. -/
def under (width index : Nat) : List Leaf → List Leaf
  | [] => []
  | l :: ls => l.within ⟨width, index, true⟩ :: ls.map (Leaf.within ⟨width, index, false⟩)

mutual

def leaves : Reply → List Leaf
  | .multi (some (r :: rs)) => leavesFrom (toString (rs.length + 1)).length 1 (r :: rs)
  | r => [⟨[], r⟩]

def leavesFrom (width index : Nat) : List Reply → List Leaf
  | [] => []
  | r :: rs => under width index (leaves r) ++ leavesFrom width (index + 1) rs

end

/-- An element that a list can take apart into lines and loses nothing. -/
structure Splits (r : Reply) : Prop where
  filled : r ≠ .status ""
  returns : ∀ l ∈ (leaves r).dropLast, l.text.getLast? ≠ some '\r'

/-- No element is an empty status, and in no element does a carriage return end a text other than the
last one. -/
inductive Tidy : Reply → Prop
  | leaf {r} (h : IsLeaf r) : Tidy r
  | list {x xs} (tidy : ∀ r ∈ x :: xs, Tidy r) (splits : ∀ r ∈ x :: xs, Splits r) :
      Tidy (.multi (some (x :: xs)))

/-- A text that is neither empty nor ends in a carriage return. -/
def Leaf.firm (l : Leaf) : Bool := l.text ≠ [] ∧ l.text.getLast? ≠ some '\r'

variable {r : Reply} {items : List Reply} {a b ls : List (List Char)} {line : List Char}
  {l : Leaf} {ks : List Leaf} {width index : Nat}

/-- The lines of the text that these lines are when line feeds stand between them. -/
def settle : List (List Char) → List (List Char)
  | [] => []
  | [line] => if line = [] then [] else [line]
  | line :: l :: ls => Text.stripReturn line :: settle (l :: ls)

/-- The lines of an element behind its number. An element without any still has an empty one. -/
def numberedLines (width index : Nat) : List (List Char) → List (List Char)
  | [] => [[]]
  | line :: ls =>
    (Place.text ⟨width, index, true⟩ ++ line) :: ls.map (Place.text ⟨width, index, false⟩ ++ ·)

mutual

/-- The lines of the layout. -/
def shown : Reply → List (List Char)
  | .multi (some (r :: rs)) => shownFrom (toString (rs.length + 1)).length 1 (r :: rs)
  | r => [(layout false r).toList]

def shownFrom (width index : Nat) : List Reply → List (List Char)
  | [] => []
  | r :: rs => numberedLines width index (settle (shown r)) ++ shownFrom width (index + 1) rs

end

theorem settle_cons (line : List Char) (h : ls ≠ []) :
    settle (line :: ls) = Text.stripReturn line :: settle ls := by
  obtain ⟨l, ls, rfl⟩ := List.exists_cons_of_ne_nil h
  rfl

theorem linesFrom_last (h : '\n' ∉ line) (before : List Char) :
    Text.linesFrom before line = if before = [] ∧ line = [] then [] else [before.reverse ++ line] := by
  induction line generalizing before with
  | nil => cases before <;> simp [Text.linesFrom]
  | cons c cs ih =>
    obtain ⟨hc, hcs⟩ := not_or.mp fun hm => h (List.mem_cons.mpr hm)
    have hn : c ≠ '\n' := Ne.symm hc
    cases before <;> simp [Text.linesFrom, hn, ih hcs]

theorem linesFrom_newline (h : '\n' ∉ line) (before cs : List Char) :
    Text.linesFrom before (line ++ '\n' :: cs) =
      Text.stripReturn (before.reverse ++ line) :: Text.linesFrom [] cs := by
  induction line generalizing before with
  | nil => cases before <;> simp [Text.linesFrom]
  | cons c line ih =>
    obtain ⟨hc, hl⟩ := not_or.mp fun hm => h (List.mem_cons.mpr hm)
    have hn : c ≠ '\n' := Ne.symm hc
    cases before <;> simp [Text.linesFrom, hn, ih hl]

theorem linesFrom_intercalate (h : ∀ l ∈ ls, '\n' ∉ l) :
    Text.linesFrom [] (['\n'].intercalate ls) = settle ls := by
  induction ls with
  | nil => rfl
  | cons line ls ih =>
    obtain ⟨hl, hls⟩ := List.forall_mem_cons.mp h
    cases ls with
    | nil => simpa [settle] using linesFrom_last hl []
    | cons l ls =>
      rw [List.intercalate_cons_cons, List.append_assoc, List.singleton_append,
        linesFrom_newline hl, ih hls, settle]
      rfl

theorem intercalate_append (ha : a ≠ []) (hb : b ≠ []) :
    ['\n'].intercalate (a ++ b) = ['\n'].intercalate a ++ '\n' :: ['\n'].intercalate b := by
  obtain ⟨m, b, rfl⟩ := List.exists_cons_of_ne_nil hb
  induction a with
  | nil => exact absurd rfl ha
  | cons line a ih =>
    cases a with
    | nil => simp
    | cons l a =>
      have h := ih (by simp)
      simp only [List.cons_append, List.intercalate_cons_cons] at h ⊢
      rw [h]
      simp

theorem shown_leaf (h : IsLeaf r) : shown r = [(layout false r).toList] := by
  rw [shown]
  rintro x xs rfl
  exact h x xs rfl

theorem leaves_leaf (h : IsLeaf r) : leaves r = [⟨[], r⟩] := by
  rw [leaves]
  rintro x xs rfl
  exact h x xs rfl

theorem numberedLines_ne_nil (width index : Nat) (ls : List (List Char)) :
    numberedLines width index ls ≠ [] := by
  cases ls <;> simp [numberedLines]

theorem shown_ne_nil (r : Reply) : shown r ≠ [] := by
  induction r using induct_lists with
  | leaf r h => simp [shown_leaf h]
  | list x xs _ => simp [shown, shownFrom, numberedLines_ne_nil]

theorem prefix_of_mem_settle (h : line ∈ settle ls) : ∃ l ∈ ls, line <+: l := by
  induction ls with
  | nil => simp [settle] at h
  | cons l ls ih =>
    by_cases hls : ls = []
    · subst hls
      have hm : line = l := by
        rw [settle] at h
        split at h
        · simp at h
        · simpa using h
      exact ⟨l, by simp, hm ▸ List.prefix_rfl⟩
    · rw [settle_cons l hls] at h
      rcases List.mem_cons.mp h with rfl | h
      · refine ⟨l, by simp, ?_⟩
        unfold Text.stripReturn
        split
        · exact List.dropLast_prefix l
        · exact List.prefix_rfl
      · obtain ⟨k, hk, hp⟩ := ih h
        exact ⟨k, List.mem_cons_of_mem _ hk, hp⟩

theorem newline_not_mem_quoted (s : String) : '\n' ∉ (Text.quoted s).toList := by
  have hex (n : Nat) : '\n' ∉ Nat.toDigits 16 n := by
    induction n using Nat.strongRecOn with
    | _ n ih =>
      by_cases hn : n < 16
      · simp [Nat.toDigits_of_lt_base hn]
      · rw [Nat.toDigits_of_base_le (by decide) (by omega), List.mem_append, not_or]
        exact ⟨ih (n / 16) (by omega), by simp⟩
  have escape (c : Char) : '\n' ∉ Text.escapeChar c := by
    unfold Text.escapeChar Text.codeEscape
    split_ifs with h0 ht hr hn <;> simp [hex]
    exact Ne.symm hn
  rw [Text.quoted, String.toList_ofList]
  simp [escape]

theorem newline_not_mem_leaf (hl : IsLeaf r) (h : Inline r) : '\n' ∉ (layout false r).toList := by
  cases h with
  | status h => simpa [layout, styled] using h
  | error h => simpa [layout, styled] using h
  | integer n =>
    have hn : '\n' ∉ (toString n).toList := fun hm =>
      absurd ((Text.Numeral.signed_toString n).char hm) (by decide)
    simpa [layout] using hn
  | bulk data =>
    cases data with
    | none => simp [layout, styled]
    | some data => simpa [layout] using newline_not_mem_quoted _
  | null => simp [layout, styled]
  | @list items _ =>
    cases items with
    | nil => simp [layout, styled]
    | cons x xs => exact absurd rfl (hl x xs)

theorem toList_pushn (s : String) (c : Char) (n : Nat) :
    (s.pushn c n).toList = s.toList ++ List.replicate n c := by
  rw [String.pushn_eq_repeat_push]
  induction n with
  | zero => simp [Nat.repeat]
  | succ n ih => rw [Nat.repeat, String.toList_push, ih, List.append_assoc, ← List.replicate_succ']

theorem Place.lead_eq (p : Place) :
    p.lead = List.replicate (p.width - (toString p.index).length) ' ' ++
      (Nat.toDigits 10 p.index ++ [')', ' ']) := by
  simp [lead, rightAligned, toList_pushn]

theorem newline_not_mem_place (p : Place) : '\n' ∉ p.text := by
  have hd : '\n' ∉ Nat.toDigits 10 p.index := fun hm =>
    absurd (Nat.isDigit_of_mem_toDigits (by decide) (by decide) hm) (by decide)
  unfold Place.text
  split
  · simp [Place.lead_eq, hd]
  · simp

theorem newline_not_mem_numberedLines (h : ∀ l ∈ ls, '\n' ∉ l) :
    ∀ l ∈ numberedLines width index ls, '\n' ∉ l := by
  cases ls with
  | nil => simp [numberedLines]
  | cons line ls =>
    obtain ⟨hl, hls⟩ := List.forall_mem_cons.mp h
    simpa [numberedLines, newline_not_mem_place, hl] using hls

theorem newline_not_mem_shown (h : Inline r) : ∀ l ∈ shown r, '\n' ∉ l := by
  induction r using induct_lists with
  | leaf r hl => simpa [shown_leaf hl] using newline_not_mem_leaf hl h
  | list x xs ih =>
    cases h with
    | list h =>
      have elements (w i : Nat) (items : List Reply)
          (hi : ∀ r ∈ items, ∀ l ∈ shown r, '\n' ∉ l) : ∀ l ∈ shownFrom w i items, '\n' ∉ l := by
        induction items generalizing i with
        | nil => simp [shownFrom]
        | cons r rs ihr =>
          obtain ⟨hr, hrs⟩ := List.forall_mem_cons.mp hi
          have hs : ∀ l ∈ settle (shown r), '\n' ∉ l := by
            intro l hl hm
            obtain ⟨k, hk, hp⟩ := prefix_of_mem_settle hl
            exact hr k hk (hp.subset hm)
          intro l hl
          rw [shownFrom] at hl
          rcases List.mem_append.mp hl with hl | hl
          · exact newline_not_mem_numberedLines hs l hl
          · exact ihr (i + 1) hrs l hl
      rw [shown]
      exact elements _ _ _ fun r hr => ih r hr (h r hr)

theorem numbered_eq (width index : Nat) (s : String) :
    numbered width index s = "\n".intercalate ((Text.lines s).zipIdx.map fun p =>
      (if p.2 = 0 then rightAligned width index ++ ") "
        else "".pushn ' ' (rightAligned width index ++ ") ").length) ++ p.1) := rfl

theorem numbered_toList (width index : Nat) (s : String) :
    (numbered width index s).toList =
      ['\n'].intercalate (numberedLines width index (Text.linesFrom [] s.toList)) := by
  have below (lead indent : String) (ls : List String) (n : Nat) :
      (ls.zipIdx (n + 1)).map (fun p => (if p.2 = 0 then lead else indent) ++ p.1) =
        ls.map (indent ++ ·) := by
    induction ls generalizing n with
    | nil => rfl
    | cons l ls ih => rw [List.zipIdx_cons, List.map_cons, ih, if_neg (by simp), List.map_cons]
  rw [numbered_eq, String.toList_intercalate, Text.lines]
  cases Text.linesFrom [] s.toList with
  | nil => simp [numberedLines]
  | cons line ls =>
    have hlead : (rightAligned width index ++ ") ").toList = Place.text ⟨width, index, true⟩ := rfl
    have hblank : ("".pushn ' ' (rightAligned width index ++ ") ").length).toList =
        Place.text ⟨width, index, false⟩ := by
      rw [toList_pushn, ← String.length_toList, hlead, String.toList_empty, List.nil_append, Place.text,
        Place.text, if_pos rfl, if_neg Bool.false_ne_true]
      rfl
    rw [List.map_cons, List.zipIdx_cons, List.map_cons, below, if_pos rfl, List.map_cons,
      String.toList_append, hlead, String.toList_ofList, List.map_map, List.map_map, numberedLines]
    simp only [Function.comp_def, String.toList_append, hblank, String.toList_ofList]

theorem layout_toList (h : Inline r) : (layout false r).toList = ['\n'].intercalate (shown r) := by
  induction r using induct_lists with
  | leaf r hl => rw [shown_leaf hl, List.intercalate_singleton]
  | list x xs ih =>
    cases h with
    | list h =>
      have elements (w i : Nat) (x : Reply) (xs : List Reply)
          (hi : ∀ r ∈ x :: xs, Text.linesFrom [] (layout false r).toList = settle (shown r)) :
          ['\n'].intercalate ((layoutFrom false w i (x :: xs)).map String.toList) =
            ['\n'].intercalate (shownFrom w i (x :: xs)) := by
        induction xs generalizing x i with
        | nil => simp [layoutFrom, shownFrom, numbered_toList, hi]
        | cons y ys ihr =>
          obtain ⟨hx, hr⟩ := List.forall_mem_cons.mp hi
          have hrest := ihr (i + 1) y hr
          have hne : shownFrom w (i + 1) (y :: ys) ≠ [] := by simp [shownFrom, numberedLines_ne_nil]
          rw [shownFrom, intercalate_append (numberedLines_ne_nil _ _ _) hne, ← hrest, layoutFrom,
            layoutFrom, List.map_cons, List.map_cons, List.intercalate_cons_cons, numbered_toList, hx]
          simp
      rw [layout, shown, String.toList_intercalate]
      refine elements _ _ _ _ fun r hr => ?_
      rw [ih r hr (h r hr), linesFrom_intercalate (newline_not_mem_shown (h r hr))]

/-- No more lines, and no more characters. -/
structure Shrinks (a b : List (List Char)) : Prop where
  lines : a.length ≤ b.length
  chars : a.flatten.length ≤ b.flatten.length

theorem Shrinks.refl (a : List (List Char)) : Shrinks a a := ⟨le_rfl, le_rfl⟩

theorem Shrinks.trans {c : List (List Char)} (h : Shrinks a b) (h' : Shrinks b c) : Shrinks a c :=
  ⟨h.lines.trans h'.lines, h.chars.trans h'.chars⟩

theorem Shrinks.append {c d : List (List Char)} (h : Shrinks a b) (h' : Shrinks c d) :
    Shrinks (a ++ c) (b ++ d) := by
  constructor
  · rw [List.length_append, List.length_append]
    exact Nat.add_le_add h.lines h'.lines
  · rw [List.flatten_append, List.flatten_append, List.length_append, List.length_append]
    exact Nat.add_le_add h.chars h'.chars

theorem length_stripReturn_le (line : List Char) : (Text.stripReturn line).length ≤ line.length := by
  unfold Text.stripReturn
  split
  · simp
  · exact le_rfl

theorem stripReturn_eq_self_of_le (h : line.length ≤ (Text.stripReturn line).length) :
    Text.stripReturn line = line := by
  unfold Text.stripReturn at h ⊢
  split
  next hr =>
    obtain ⟨cs, rfl⟩ := List.getLast?_eq_some_iff.mp hr
    simp at h
  next => rfl

theorem shrinks_settle (ls : List (List Char)) : Shrinks (settle ls) ls := by
  induction ls with
  | nil => exact .refl []
  | cons line ls ih =>
    by_cases hls : ls = []
    · subst hls
      rw [settle]
      split
      · exact ⟨by simp, by simp⟩
      · exact .refl _
    · have hs := length_stripReturn_le line
      have hl := ih.lines
      have hc := ih.chars
      rw [settle_cons line hls]
      exact ⟨by simpa using hl, by simp only [List.flatten_cons, List.length_append]; omega⟩

theorem Place.text_eq_concat (p : Place) : ∃ cs, p.text = cs ++ [' '] := by
  unfold Place.text
  split
  · exact ⟨List.replicate (p.width - (toString p.index).length) ' ' ++
        (Nat.toDigits 10 p.index ++ [')']), by simp [Place.lead_eq]⟩
  · have hpos : 0 < p.lead.length := by
      rw [Place.lead_eq]
      simp
    exact ⟨List.replicate (p.lead.length - 1) ' ', by
      rw [← List.replicate_succ', Nat.sub_add_cancel hpos]⟩

theorem Place.text_ne_nil (p : Place) : p.text ≠ [] := by
  obtain ⟨cs, h⟩ := p.text_eq_concat
  simp [h]

theorem Place.length_text (p : Place) : p.text.length = p.lead.length := by
  unfold Place.text
  split <;> simp

theorem length_map_append_flatten (cs : List Char) (ls : List (List Char)) :
    (ls.map (cs ++ ·)).flatten.length = ls.length * cs.length + ls.flatten.length := by
  induction ls with
  | nil => simp
  | cons l ls ih =>
    simp only [List.map_cons, List.flatten_cons, List.length_append, ih, List.length_cons]
    ring

theorem numberedLines_count (width index : Nat) (h : ls ≠ []) :
    (numberedLines width index ls).length = ls.length ∧
      (numberedLines width index ls).flatten.length =
        ls.length * (Place.lead ⟨width, index, true⟩).length + ls.flatten.length := by
  obtain ⟨line, ls, rfl⟩ := List.exists_cons_of_ne_nil h
  refine ⟨by simp [numberedLines], ?_⟩
  have hw : (Place.lead ⟨width, index, false⟩).length = (Place.lead ⟨width, index, true⟩).length :=
    rfl
  simp only [numberedLines, List.flatten_cons, List.length_append, length_map_append_flatten,
    Place.length_text, List.length_cons, hw]
  ring

theorem Shrinks.numbered (h : Shrinks a b) (hb : b ≠ []) (width index : Nat) :
    Shrinks (numberedLines width index a) (numberedLines width index b) := by
  obtain ⟨hbl, hbc⟩ := numberedLines_count width index hb
  by_cases ha : a = []
  · have hpos := List.length_pos_iff.mpr hb
    subst ha
    exact ⟨hbl.symm ▸ hpos, Nat.zero_le _⟩
  · obtain ⟨hal, hac⟩ := numberedLines_count width index ha
    have hm := Nat.mul_le_mul_right (Place.lead ⟨width, index, true⟩).length h.lines
    have hc := h.chars
    exact ⟨by rw [hal, hbl]; exact h.lines, by omega⟩

theorem numberedLines_map (width index : Nat) (h : ks ≠ []) :
    numberedLines width index (ks.map Leaf.line) = (under width index ks).map Leaf.line := by
  obtain ⟨l, ls, rfl⟩ := List.exists_cons_of_ne_nil h
  simp [numberedLines, under, Leaf.line, Leaf.within, Leaf.text]

theorem leaves_ne_nil (r : Reply) : leaves r ≠ [] := by
  induction r using induct_lists with
  | leaf r h => simp [leaves_leaf h]
  | list x xs ih =>
    have hx := ih x (by simp)
    obtain ⟨l, ls, hl⟩ := List.exists_cons_of_ne_nil hx
    simp [leaves, leavesFrom, hl, under]

theorem map_line_ne_nil (r : Reply) : (leaves r).map Leaf.line ≠ [] :=
  List.map_eq_nil_iff.not.mpr (leaves_ne_nil r)

theorem shrinks_shownFrom (h : ∀ r ∈ items, Shrinks (shown r) ((leaves r).map Leaf.line))
    (width index : Nat) :
    Shrinks (shownFrom width index items) ((leavesFrom width index items).map Leaf.line) := by
  induction items generalizing index with
  | nil => exact .refl []
  | cons r rs ih =>
    obtain ⟨hr, hrs⟩ := List.forall_mem_cons.mp h
    rw [shownFrom, leavesFrom, List.map_append, ← numberedLines_map width index (leaves_ne_nil r)]
    exact (((shrinks_settle _).trans hr).numbered (map_line_ne_nil r) width index).append (ih hrs _)

theorem shrinks_shown (r : Reply) : Shrinks (shown r) ((leaves r).map Leaf.line) := by
  induction r using induct_lists with
  | leaf r h =>
    rw [shown_leaf h, leaves_leaf h]
    exact .refl _
  | list x xs ih =>
    rw [shown, leaves]
    exact shrinks_shownFrom ih _ _

theorem stripReturn_eq_self : Text.stripReturn line = line ↔ line.getLast? ≠ some '\r' := by
  unfold Text.stripReturn
  split
  next h =>
    obtain ⟨cs, rfl⟩ := List.getLast?_eq_some_iff.mp h
    simp
  next h => simp [h]

theorem settle_eq_self :
    settle ls = ls ↔ (∀ l ∈ ls.dropLast, l.getLast? ≠ some '\r') ∧ ls.getLast? ≠ some [] := by
  induction ls with
  | nil => simp [settle]
  | cons line ls ih =>
    by_cases hls : ls = []
    · subst hls
      rw [settle]
      split <;> simp_all
    · rw [settle_cons line hls, List.cons.injEq, stripReturn_eq_self, ih,
        List.dropLast_cons_of_ne_nil hls, List.forall_mem_cons, List.getLast?_cons_of_ne_nil hls,
        and_assoc]

/-- Lines that come out as they were had nothing to lose. -/
theorem settle_eq_self_of_shrinks (h : Shrinks ls (settle ls)) : settle ls = ls := by
  induction ls with
  | nil => rfl
  | cons line ls ih =>
    by_cases hls : ls = []
    · subst hls
      have hl := h.lines
      rw [settle] at hl ⊢
      split at hl
      · simp at hl
      next hn => rw [if_neg hn]
    · have hs := shrinks_settle ls
      have hlen := length_stripReturn_le line
      have hl := h.lines
      have hc := h.chars
      rw [settle_cons line hls] at hl hc ⊢
      simp only [List.flatten_cons, List.length_append, List.length_cons] at hl hc
      have hsc := hs.chars
      have hrest : settle ls = ls := ih ⟨by omega, by omega⟩
      have hline : Text.stripReturn line = line := stripReturn_eq_self_of_le (by omega)
      rw [hline, hrest]

/-- A line ends in a carriage return if the leaf's own text does. -/
theorem Leaf.getLast?_line (l : Leaf) : l.line.getLast? = some '\r' ↔ l.text.getLast? = some '\r' := by
  unfold Leaf.line
  by_cases ht : l.text = []
  · rcases List.eq_nil_or_concat l.path with hp | ⟨ps, p, hp⟩
    · simp [hp]
    · obtain ⟨cs, hcs⟩ := p.text_eq_concat
      simp [hp, ht, hcs]
  · rw [List.getLast?_append_of_ne_nil _ ht]

theorem numberedLines_inj (hb : b ≠ []) :
    numberedLines width index a = numberedLines width index b ↔ a = b := by
  obtain ⟨l, ls, rfl⟩ := List.exists_cons_of_ne_nil hb
  cases a with
  | nil => simp [numberedLines, Place.text_ne_nil]
  | cons m ms =>
    have hinj : Function.Injective (Place.text ⟨width, index, false⟩ ++ ·) :=
      List.append_right_injective _
    simp [numberedLines, hinj.list_map.eq_iff]

/-- Of the leaves of a list, each one stands behind some column. -/
theorem line_ne_nil_of_mem_leavesFrom (h : l ∈ leavesFrom width index items) : l.line ≠ [] := by
  have within (p : Place) (l : Leaf) : (l.within p).line ≠ [] := by
    simp [Leaf.line, Leaf.within, p.text_ne_nil]
  induction items generalizing index with
  | nil => simp [leavesFrom] at h
  | cons r rs ih =>
    rw [leavesFrom] at h
    rcases List.mem_append.mp h with h | h
    · cases hl : leaves r with
      | nil => exact absurd hl (leaves_ne_nil r)
      | cons k ks =>
        rw [hl, under, List.mem_cons, List.mem_map] at h
        rcases h with rfl | ⟨k, -, rfl⟩ <;> exact within _ _
    · exact ih h

theorem text_eq_nil_iff (h : IsLeaf r) : (layout false r).toList = [] ↔ r = .status "" := by
  match r, h with
  | .status s, _ => simp [layout, styled]
  | .error s, _ => simp [layout, styled]
  | .integer n, _ => simp [layout]
  | .bulk none, _ => simp [layout, styled]
  | .bulk (some data), _ => simp [layout, Text.quoted]
  | .multi none, _ => simp [layout, styled]
  | .multi (some []), _ => simp [layout, styled]
  | .multi (some (x :: xs)), h => exact absurd rfl (h x xs)

theorem getLast?_lines_eq_nil (r : Reply) :
    ((leaves r).map Leaf.line).getLast? = some [] ↔ r = .status "" := by
  by_cases h : IsLeaf r
  · simpa [leaves_leaf h, Leaf.line, Leaf.text] using text_eq_nil_iff h
  · obtain ⟨x, xs, rfl⟩ : ∃ x xs, r = .multi (some (x :: xs)) := by
      simpa [IsLeaf] using h
    refine ⟨fun hl => ?_, fun h => by cases h⟩
    obtain ⟨l, hl, he⟩ := List.mem_map.mp (List.mem_of_getLast? hl)
    rw [leaves] at hl
    exact absurd he (line_ne_nil_of_mem_leavesFrom hl)

theorem settle_lines_iff (r : Reply) :
    settle ((leaves r).map Leaf.line) = (leaves r).map Leaf.line ↔ Splits r := by
  rw [settle_eq_self, ne_eq, getLast?_lines_eq_nil, ← List.map_dropLast, List.forall_mem_map]
  simp only [ne_eq, Leaf.getLast?_line]
  exact ⟨fun h => ⟨h.2, h.1⟩, fun h => ⟨h.returns, h.filled⟩⟩

theorem shownFrom_eq_iff (h : ∀ r ∈ items, (shown r = (leaves r).map Leaf.line ↔ Tidy r))
    (width index : Nat) :
    shownFrom width index items = (leavesFrom width index items).map Leaf.line ↔
      ∀ r ∈ items, Tidy r ∧ Splits r := by
  induction items generalizing index with
  | nil => simp [shownFrom, leavesFrom]
  | cons r rs ih =>
    obtain ⟨hr, hrs⟩ := List.forall_mem_cons.mp h
    have hne := map_line_ne_nil r
    have hfirst := ((shrinks_settle (shown r)).trans (shrinks_shown r)).numbered hne width index
    have hrest := shrinks_shownFrom (fun r (_ : r ∈ rs) => shrinks_shown r) width (index + 1)
    have element : settle (shown r) = (leaves r).map Leaf.line ↔ Tidy r ∧ Splits r := by
      rw [← hr, ← settle_lines_iff]
      constructor
      · intro hs
        have hkeep : settle (shown r) = shown r :=
          settle_eq_self_of_shrinks (hs ▸ shrinks_shown r)
        rw [hkeep] at hs
        exact ⟨hs, hs ▸ hkeep⟩
      · rintro ⟨hs, hkeep⟩
        rw [hs, hkeep]
    rw [shownFrom, leavesFrom, List.map_append, ← numberedLines_map width index (leaves_ne_nil r),
      List.forall_mem_cons, ← ih hrs (index + 1), ← element, ← numberedLines_inj hne]
    constructor
    · intro he
      have hlen := congrArg List.length he
      rw [List.length_append, List.length_append] at hlen
      have hf := hfirst.lines
      have hr := hrest.lines
      exact List.append_inj he (by omega)
    · rintro ⟨he, he'⟩
      rw [he, he']

theorem shown_eq_iff (r : Reply) : shown r = (leaves r).map Leaf.line ↔ Tidy r := by
  induction r using induct_lists with
  | leaf r h => simp [shown_leaf h, leaves_leaf h, Leaf.line, Leaf.text, Tidy.leaf h]
  | list x xs ih =>
    rw [shown, leaves, shownFrom_eq_iff ih]
    constructor
    · exact fun h => .list (fun r hr => (h r hr).1) (fun r hr => (h r hr).2)
    · intro h r hr
      cases h with
      | leaf h => exact absurd rfl (h x xs)
      | list tidy splits => exact ⟨tidy r hr, splits r hr⟩

theorem Leaf.firm_iff : l.firm ↔ l.text ≠ [] ∧ l.text.getLast? ≠ some '\r' := by
  simp [Leaf.firm]

theorem Leaf.firm_within (p : Place) (l : Leaf) : (l.within p).firm = l.firm := rfl

theorem line_of_firm (h : l.firm) : l.line ≠ [] ∧ l.line.getLast? ≠ some '\r' := by
  obtain ⟨hn, hr⟩ := Leaf.firm_iff.mp h
  exact ⟨by simp [Leaf.line, hn], by rwa [ne_eq, l.getLast?_line]⟩

/-- The first line belongs to the first leaf, and every firm leaf has its own. -/
inductive Keeps : List Leaf → List (List Char) → Prop
  | mk {l : Leaf} {ks : List Leaf} {line : List Char} {ls : List (List Char)}
      (head : l.firm → line = l.line)
      (tail : ((ks.filter Leaf.firm).map Leaf.line).Sublist ls) : Keeps (l :: ks) (line :: ls)

theorem Keeps.sublist (h : Keeps ks ls) : ((ks.filter Leaf.firm).map Leaf.line).Sublist ls := by
  cases h with
  | @mk l _ _ _ head tail =>
    by_cases hl : l.firm
    · rw [List.filter_cons_of_pos hl, List.map_cons, head hl]
      exact tail.cons_cons _
    · rw [List.filter_cons_of_neg hl]
      exact tail.cons _

theorem Keeps.append {ms : List Leaf} (h : Keeps ks a)
    (h' : ((ms.filter Leaf.firm).map Leaf.line).Sublist b) : Keeps (ks ++ ms) (a ++ b) := by
  cases h with
  | mk head tail =>
    have ht := tail.append h'
    rw [← List.map_append, ← List.filter_append] at ht
    exact .mk head ht

theorem sublist_settle (h : a.Sublist ls) (ha : ∀ l ∈ a, l ≠ [] ∧ l.getLast? ≠ some '\r') :
    a.Sublist (settle ls) := by
  induction h with
  | slnil => exact .slnil
  | @cons a ls line h ih =>
    by_cases hls : ls = []
    · subst hls
      rw [List.sublist_nil.mp h]
      exact List.nil_sublist _
    · rw [settle_cons line hls]
      exact (ih ha).cons _
  | @cons_cons a ls line h ih =>
    obtain ⟨hl, hr⟩ := List.forall_mem_cons.mp ha
    by_cases hls : ls = []
    · subst hls
      rw [List.sublist_nil.mp h, settle, if_neg hl.1]
    · rw [settle_cons line hls, stripReturn_eq_self.mpr hl.2]
      exact (ih hr).cons_cons _

/-- The first line may go too, but then it was the only one, and an empty one takes its place. -/
theorem Keeps.numbered (h : Keeps ks ls) (width index : Nat) :
    Keeps (under width index ks) (numberedLines width index (settle ls)) := by
  have within (p : Place) (l : Leaf) : (l.within p).line = p.text ++ l.line := by
    simp [Leaf.line, Leaf.within, Leaf.text]
  cases h with
  | @mk l ks line ls head tail =>
    have below {ls : List (List Char)} (h : ((ks.filter Leaf.firm).map Leaf.line).Sublist ls) :
        (((ks.map (Leaf.within ⟨width, index, false⟩)).filter Leaf.firm).map Leaf.line).Sublist
          (ls.map (Place.text ⟨width, index, false⟩ ++ ·)) := by
      have hm := h.map (Place.text ⟨width, index, false⟩ ++ ·)
      simpa [List.filter_map, Function.comp_def, within, Leaf.firm_within] using hm
    by_cases hls : ls = []
    · subst hls
      rw [settle]
      split
      next he =>
        refine .mk (fun hl => ?_) (below tail)
        exact absurd ((head hl).symm.trans he) (line_of_firm (l := l) hl).1
      next => exact .mk (fun hl => by rw [within, head hl]) (below tail)
    · rw [settle_cons line hls]
      refine .mk (fun hl => ?_) (below (sublist_settle tail fun m hm => ?_))
      · rw [within, head hl, stripReturn_eq_self.mpr (line_of_firm (l := l) hl).2]
      · obtain ⟨k, hk, rfl⟩ := List.mem_map.mp hm
        exact line_of_firm (List.mem_filter.mp hk).2

theorem sublist_shownFrom (h : ∀ r ∈ items, Keeps (leaves r) (shown r)) (width index : Nat) :
    (((leavesFrom width index items).filter Leaf.firm).map Leaf.line).Sublist
      (shownFrom width index items) := by
  induction items generalizing index with
  | nil => exact List.nil_sublist _
  | cons r rs ih =>
    obtain ⟨hr, hrs⟩ := List.forall_mem_cons.mp h
    rw [leavesFrom, shownFrom]
    exact ((hr.numbered width index).append (ih hrs (index + 1))).sublist

theorem keeps_shown (r : Reply) : Keeps (leaves r) (shown r) := by
  induction r using induct_lists with
  | leaf r h =>
    rw [leaves_leaf h, shown_leaf h]
    exact .mk (fun _ => by simp [Leaf.line, Leaf.text]) (List.nil_sublist _)
  | list x xs ih =>
    obtain ⟨hx, hxs⟩ := List.forall_mem_cons.mp ih
    rw [leaves, shown, leavesFrom, shownFrom]
    exact (hx.numbered _ 1).append (sublist_shownFrom hxs _ _)

/-- The column of a list of `n` elements: as wide as the largest number, with a bracket and a space
behind it. -/
structure Place.Fits (p : Place) (n : Nat) : Prop where
  one_le : 1 ≤ p.index
  le : p.index ≤ n
  width : p.width = (toString n).length
  lead : p.lead.length = (toString n).length + 2

theorem Place.fits {p : Place} {n : Nat} (h1 : 1 ≤ p.index) (hn : p.index ≤ n)
    (hw : p.width = (toString n).length) : p.Fits n := by
  refine ⟨h1, hn, hw, ?_⟩
  have digits (m : Nat) : (toString m).length = (Nat.toDigits 10 m).length := by
    rw [← String.length_toList, ← Nat.toList_repr]
    rfl
  have hlen : (Nat.toDigits 10 p.index).length ≤ (Nat.toDigits 10 n).length := by
    rw [Nat.length_toDigits_le_iff (by decide) Nat.length_toDigits_pos]
    exact hn.trans_lt
      ((Nat.length_toDigits_le_iff (by decide) Nat.length_toDigits_pos).mp (Nat.le_refl _))
  rw [Place.lead_eq, hw, digits, digits]
  simp only [List.length_append, List.length_replicate, List.length_cons, List.length_nil]
  omega

theorem fits_of_leavesFrom {n : Nat}
    (h : ∀ r ∈ items, ∀ l ∈ leaves r, ∀ p ∈ l.path, ∃ n, p.Fits n)
    (h1 : 1 ≤ index) (hn : index + items.length ≤ n + 1) :
    ∀ l ∈ leavesFrom (toString n).length index items, ∀ p ∈ l.path, ∃ n, p.Fits n := by
  induction items generalizing index with
  | nil => simp [leavesFrom]
  | cons r rs ih =>
    obtain ⟨hr, hrs⟩ := List.forall_mem_cons.mp h
    have hlen : (r :: rs).length = rs.length + 1 := rfl
    intro l hl p hp
    rw [leavesFrom] at hl
    rcases List.mem_append.mp hl with hl | hl
    · have here (first : Bool) : Place.Fits ⟨(toString n).length, index, first⟩ n :=
        Place.fits h1 (by simp only; omega) rfl
      cases hks : leaves r with
      | nil => exact absurd hks (leaves_ne_nil r)
      | cons k ks =>
        rw [hks] at hr
        rw [hks, under, List.mem_cons, List.mem_map] at hl
        rcases hl with rfl | ⟨k', hk', rfl⟩
        · rcases List.mem_cons.mp hp with rfl | hp
          · exact ⟨n, here true⟩
          · exact hr k (by simp) p hp
        · rcases List.mem_cons.mp hp with rfl | hp
          · exact ⟨n, here false⟩
          · exact hr k' (List.mem_cons_of_mem _ hk') p hp
    · exact ih hrs (by omega) (by omega) l hl p hp

theorem fits_of_leaves (r : Reply) : ∀ l ∈ leaves r, ∀ p ∈ l.path, ∃ n, p.Fits n := by
  induction r using induct_lists with
  | leaf r h => simp [leaves_leaf h]
  | list x xs ih =>
    rw [leaves]
    exact fits_of_leavesFrom ih le_rfl (by simp only [List.length_cons]; omega)

theorem layout_lines (h : Inline r) : (layout false r).toList.splitOn '\n' = shown r := by
  rw [layout_toList h]
  exact List.splitOn_intercalate _ (newline_not_mem_shown h) (shown_ne_nil r)

/-- A decoded reply is laid out with one line per leaf, each one behind the columns of the lists
around it, exactly if it is tidy. In any case a leaf whose text is neither empty nor ends in a carriage
return has its line, and these lines are in the order of the leaves. -/
theorem layout_line_per_leaf (r : Reply) :
    (∀ limits buf d rest, Reply.Decoder.decode ⟨limits, []⟩ buf = (.reply r, d, rest) → Inline r) ∧
    (Inline r →
      ((layout false r).toList.splitOn '\n' = (leaves r).map Leaf.line ↔ Tidy r) ∧
      (((leaves r).filter Leaf.firm).map Leaf.line).Sublist ((layout false r).toList.splitOn '\n') ∧
      ∀ l ∈ leaves r, ∀ p ∈ l.path, ∃ n, p.Fits n) := by
  refine ⟨fun limits buf d rest h => Reply.inline_of_decode h, fun h => ?_⟩
  rw [layout_lines h]
  exact ⟨shown_eq_iff r, (keeps_shown r).sublist, fits_of_leaves r⟩

/-- A list in a list, with a null and an empty list among the elements. -/
def nested : Reply :=
  .multi (some [.multi (some [.integer 1, .bulk none]), .multi (some []), .status "OK"])

theorem layout_line_per_leaf_nested :
    Inline nested ∧ Tidy nested ∧
      (layout false nested).toList.splitOn '\n' =
        ["1) 1) (integer) 1".toList, "   2) (nil)".toList, "2) (empty array)".toList, "3) OK".toList] := by
  have inline : Inline nested := by
    refine .list fun r hr => ?_
    simp only [List.mem_cons, List.not_mem_nil, or_false] at hr
    rcases hr with rfl | rfl | rfl
    · refine .list fun r hr => ?_
      simp only [List.mem_cons, List.not_mem_nil, or_false] at hr
      rcases hr with rfl | rfl
      · exact .integer 1
      · exact .bulk none
    · exact .list (by simp)
    · exact .status (by decide)
  have hlines : (layout false nested).toList.splitOn '\n' =
      ["1) 1) (integer) 1".toList, "   2) (nil)".toList, "2) (empty array)".toList, "3) OK".toList] := by
    decide +kernel
  have hleaves : (leaves nested).map Leaf.line =
      ["1) 1) (integer) 1".toList, "   2) (nil)".toList, "2) (empty array)".toList, "3) OK".toList] := by
    decide +kernel
  obtain ⟨htidy, -, -⟩ := (layout_line_per_leaf nested).2 inline
  exact ⟨inline, htidy.mp (hlines.trans hleaves.symm), hlines⟩

/-- An empty status, here the first of two elements that were decoded, gets a blank line without its
number; at the end of a list that is an element itself it gets none at all. A carriage return that is
not at the end of such a list goes too. The other way to print replies keeps the number. -/
theorem layout_loses_elements :
    (Reply.decoded [42, 50, 13, 10, 43, 13, 10, 43, 79, 75, 13, 10]).map (layout false) =
      ["\n2) OK"] ∧
    layout false (.multi (some [.status "", .status "OK"])) = "\n2) OK" ∧
    Reply.render (.multi (some [.status "", .status "OK"])) = "1) \n2) OK" ∧
    (leaves (.multi (some [.status "", .status "OK"]))).map Leaf.line = ["1) ".toList, "2) OK".toList] ∧
    layout false (.multi (some [.multi (some [.status "OK", .status ""])])) = "1) 1) OK" ∧
    layout false (.multi (some [.multi (some [.status "a\r", .status "b"])])) = "1) 1) a\n   2) b" := by
  decide +kernel

end Shell
end RespClient
