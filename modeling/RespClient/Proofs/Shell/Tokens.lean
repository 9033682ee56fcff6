import RespClient.Shell.Tokens

namespace RespClient.Shell

open Text (isBlank)

/-- A character that stands for itself outside quotes. -/
structure IsBare (c : Char) : Prop where
  single : c ≠ '\''
  double : c ≠ '"'
  blank : isBlank c = false

/-- A text and what may stand for it between double quotes. A quote or a backslash has a backslash before
it; line feed, carriage return and tab are written as they are or by their letters. A backslash before
any other character does no harm. -/
inductive Escaped : List Char → List Char → Prop
  | nil : Escaped [] []
  | raw {c s w} (quote : c ≠ '"') (backslash : c ≠ '\\') (h : Escaped s w) : Escaped (c :: s) (c :: w)
  | newline {s w} (h : Escaped s w) : Escaped ('\n' :: s) ('\\' :: 'n' :: w)
  | carriageReturn {s w} (h : Escaped s w) : Escaped ('\r' :: s) ('\\' :: 'r' :: w)
  | tab {s w} (h : Escaped s w) : Escaped ('\t' :: s) ('\\' :: 't' :: w)
  | self {c s w} (hn : c ≠ 'n') (hr : c ≠ 'r') (ht : c ≠ 't') (h : Escaped s w) :
      Escaped (c :: s) ('\\' :: c :: w)

/-- A text and one way to write it. -/
inductive Piece : List Char → List Char → Prop
  | bare {s} (filled : s ≠ []) (bare : ∀ c ∈ s, IsBare c) : Piece s s
  | single {s} (free : '\'' ∉ s) : Piece s ('\'' :: (s ++ ['\'']))
  | double {s w} (h : Escaped s w) : Piece s ('"' :: (w ++ ['"']))

/-- A text, and pieces that stand for it with nothing between them. -/
inductive Token : List Char → List Char → Prop
  | piece {s w} (h : Piece s w) : Token s w
  | cons {s w s' w'} (h : Piece s w) (more : Token s' w') : Token (s ++ s') (w ++ w')

/-- Tokens with blanks between them, and perhaps before and after them. -/
inductive Spells : List String → List Char → Prop
  | nil {gap} (blank : ∀ c ∈ gap, isBlank c) : Spells [] gap
  | cons {text ts gap w rest} (blank : ∀ c ∈ gap, isBlank c) (token : Token text.toList w)
      (apart : ∀ c ∈ rest.head?, isBlank c) (more : Spells ts rest) :
      Spells (text :: ts) (gap ++ (w ++ rest))

/-- Every quote that opens is closed. -/
inductive Closed : List Char → Prop
  | nil : Closed []
  | other {c cs} (single : c ≠ '\'') (double : c ≠ '"') (h : Closed cs) : Closed (c :: cs)
  | single {s cs} (free : '\'' ∉ s) (h : Closed cs) : Closed ('\'' :: (s ++ '\'' :: cs))
  | double {s w cs} (inside : Escaped s w) (h : Closed cs) : Closed ('"' :: (w ++ '"' :: cs))

/-- A quote that is open at the end of the line; the last character may be a backslash in it. -/
inductive Unclosed : List Char → Prop
  | single {s} (free : '\'' ∉ s) : Unclosed ('\'' :: s)
  | double {s w} (inside : Escaped s w) : Unclosed ('"' :: w)
  | backslash {s w} (inside : Escaped s w) : Unclosed ('"' :: (w ++ ['\\']))

/-- Of the quotes, read from the left, the last one is open at the end of the line. -/
def EndsInQuote (line : List Char) : Prop :=
  ∃ before rest, line = before ++ rest ∧ Closed before ∧ Unclosed rest

variable {s w token cs gap line : List Char} {c : Char} {ts : List String}

theorem Escaped.letter (e : Char) (h : Escaped s w) : Escaped (unescape e :: s) ('\\' :: e :: w) := by
  unfold unescape
  split
  next he => exact he ▸ h.newline
  next hn =>
    split
    next he => exact he ▸ h.carriageReturn
    next hr =>
      split
      next he => exact he ▸ h.tab
      next ht => exact h.self hn hr ht

/-- Inside a double quote the scanner reads what was escaped. -/
theorem tokensFrom_escaped (h : Escaped s w) (token cs : List Char) :
    tokensFrom (.inQuote .double token) (w ++ cs) =
      tokensFrom (.inQuote .double (s.reverse ++ token)) cs := by
  induction h generalizing token with
  | nil => rfl
  | raw hq hb _ ih =>
    rw [List.cons_append, tokensFrom, if_neg (by simpa [Quote.char] using hq), if_neg (by simp [hb]),
      ih]
    simp
  | newline _ ih | carriageReturn _ ih | tab _ ih =>
    rw [List.cons_append, List.cons_append, tokensFrom, if_neg (by decide), if_pos (by decide),
      tokensFrom, ih]
    simp [unescape]
  | self hn hr ht _ ih =>
    rw [List.cons_append, List.cons_append, tokensFrom, if_neg (by decide), if_pos (by decide),
      tokensFrom, ih]
    simp [unescape, hn, hr, ht]

theorem tokensFrom_single (h : '\'' ∉ s) (token cs : List Char) :
    tokensFrom (.inQuote .single token) (s ++ cs) =
      tokensFrom (.inQuote .single (s.reverse ++ token)) cs := by
  induction s generalizing token with
  | nil => rfl
  | cons c s ih =>
    obtain ⟨hc, hs⟩ := not_or.mp fun hm => h (List.mem_cons.mpr hm)
    have hc' : c ≠ Quote.single.char := Ne.symm hc
    rw [List.cons_append, tokensFrom, if_neg hc', if_neg (by simp), ih hs]
    simp

theorem IsBare.outside (h : IsBare c) (token : List Char) :
    Scan.outside token c = .bare (c :: token) := by
  rw [Scan.outside, quote?, if_neg h.double, if_neg h.single]

theorem tokensFrom_bare (h : ∀ c ∈ s, IsBare c) (token cs : List Char) :
    tokensFrom (.bare token) (s ++ cs) = tokensFrom (.bare (s.reverse ++ token)) cs := by
  induction s generalizing token with
  | nil => rfl
  | cons c s ih =>
    obtain ⟨hc, hs⟩ := List.forall_mem_cons.mp h
    rw [List.cons_append, tokensFrom, hc.blank, if_neg (by decide), hc.outside, ih hs]
    simp

theorem tokensFrom_quote (q : Quote) (token cs : List Char) :
    tokensFrom (.bare token) (q.char :: cs) = tokensFrom (.inQuote q token) cs := by
  cases q <;> rfl

theorem tokensFrom_close (q : Quote) (token cs : List Char) :
    tokensFrom (.inQuote q token) (q.char :: cs) = tokensFrom (.bare token) cs := by
  rw [tokensFrom, if_pos rfl]

theorem Piece.tokensFrom_eq (h : Piece s w) (token cs : List Char) :
    tokensFrom (.bare token) (w ++ cs) = tokensFrom (.bare (s.reverse ++ token)) cs := by
  cases h with
  | bare _ hs => exact tokensFrom_bare hs token cs
  | single hs =>
    rw [List.cons_append, List.append_assoc]
    exact (tokensFrom_quote .single token _).trans
      ((tokensFrom_single hs token _).trans (tokensFrom_close .single _ cs))
  | double he =>
    rw [List.cons_append, List.append_assoc]
    exact (tokensFrom_quote .double token _).trans
      ((tokensFrom_escaped he token _).trans (tokensFrom_close .double _ cs))

theorem Token.tokensFrom_eq (h : Token s w) (token cs : List Char) :
    tokensFrom (.bare token) (w ++ cs) = tokensFrom (.bare (s.reverse ++ token)) cs := by
  induction h generalizing token with
  | piece h => exact h.tokensFrom_eq token cs
  | cons h _ ih =>
    rw [List.append_assoc, h.tokensFrom_eq, ih, List.reverse_append, List.append_assoc]

/-- A token starts with a character that is not blank. -/
theorem Token.exists_cons (h : Token s w) : ∃ c w', w = c :: w' ∧ isBlank c = false := by
  have first {s w : List Char} (h : Piece s w) : ∃ c w', w = c :: w' ∧ isBlank c = false := by
    cases h with
    | bare filled hs =>
      obtain ⟨c, s', rfl⟩ := List.exists_cons_of_ne_nil filled
      exact ⟨c, s', rfl, (hs c List.mem_cons_self).blank⟩
    | single | double => exact ⟨_, _, rfl, by decide⟩
  cases h with
  | piece h => exact first h
  | cons h =>
    obtain ⟨c, w', rfl, hc⟩ := first h
    exact ⟨c, _, rfl, hc⟩

theorem Token.length_lt (h : Token s w) (rest : List Char) : rest.length < (w ++ rest).length := by
  obtain ⟨c, w', rfl, -⟩ := h.exists_cons
  rw [List.length_append, List.length_cons]
  omega

/-- Between tokens, a character that is not blank begins one. -/
theorem tokensFrom_begin (h : isBlank c = false) (cs : List Char) :
    tokensFrom .between (c :: cs) = tokensFrom (.bare []) (c :: cs) := by
  rw [tokensFrom, tokensFrom, h]
  rfl

theorem tokensFrom_blanks (h : ∀ c ∈ gap, isBlank c) (cs : List Char) :
    tokensFrom .between (gap ++ cs) = tokensFrom .between cs := by
  induction gap with
  | nil => rfl
  | cons c gap ih =>
    obtain ⟨hc, hg⟩ := List.forall_mem_cons.mp h
    rw [List.cons_append, tokensFrom, if_pos hc, ih hg]

theorem tokensFrom_apart (h : ∀ c ∈ cs.head?, isBlank c) (token : List Char) :
    tokensFrom (.bare token) cs =
      (tokensFrom .between cs).map (String.ofList token.reverse :: ·) := by
  cases cs with
  | nil => rfl
  | cons c cs =>
    have hc : isBlank c = true := h c rfl
    rw [tokensFrom, tokensFrom, if_pos hc, if_pos hc]

theorem Spells.tokensFrom_eq (h : Spells ts line) : tokensFrom .between line = some ts := by
  induction h with
  | nil hg =>
    have hblank := tokensFrom_blanks hg []
    rw [List.append_nil] at hblank
    exact hblank
  | @cons text ts gap w rest hg ht apart _ ih =>
    obtain ⟨c, w', rfl, hc⟩ := ht.exists_cons
    rw [tokensFrom_blanks hg, List.cons_append, tokensFrom_begin hc, ← List.cons_append,
      ht.tokensFrom_eq, List.append_nil, tokensFrom_apart apart, ih, List.reverse_reverse,
      String.ofList_toList]
    rfl

theorem Unclosed.tokensFrom_eq (h : Unclosed cs) (token : List Char) :
    tokensFrom (.bare token) cs = none := by
  have stop (q : Quote) (token : List Char) : tokensFrom (.inQuote q token) [] = none := rfl
  cases h with
  | @single s hs =>
    have hread := tokensFrom_single hs token []
    rw [List.append_nil, stop] at hread
    exact (tokensFrom_quote .single token s).trans hread
  | @double s w he =>
    have hread := tokensFrom_escaped he token []
    rw [List.append_nil, stop] at hread
    exact (tokensFrom_quote .double token w).trans hread
  | @backslash s w he =>
    exact (tokensFrom_quote .double token (w ++ ['\\'])).trans (tokensFrom_escaped he token ['\\'])

/-- Whether a line is read does not depend on the token that is under way before it. -/
theorem Closed.tokensFrom_eq (h : Closed cs) {rest : List Char} (hr : Unclosed rest) :
    (∀ token, tokensFrom (.bare token) (cs ++ rest) = none) ∧
      tokensFrom .between (cs ++ rest) = none := by
  have piece {s w cs : List Char} (h : Piece s w)
      (hn : ∀ token, tokensFrom (.bare token) cs = none) :
      (∀ token, tokensFrom (.bare token) (w ++ cs) = none) ∧
        tokensFrom .between (w ++ cs) = none := by
    have hnone (token : List Char) : tokensFrom (.bare token) (w ++ cs) = none := by
      rw [h.tokensFrom_eq, hn]
    obtain ⟨c, w', rfl, hc⟩ := (Token.piece h).exists_cons
    exact ⟨hnone, (tokensFrom_begin hc _).trans (hnone [])⟩
  induction h with
  | nil =>
    refine ⟨hr.tokensFrom_eq, ?_⟩
    have hnone := hr.tokensFrom_eq []
    cases hr with
    | single | double | backslash => exact hnone
  | @other c cs hs hd _ ih =>
    by_cases hb : isBlank c = true
    · refine ⟨fun token => ?_, ?_⟩
      · rw [List.cons_append, tokensFrom, if_pos hb, ih.2]
        rfl
      · rw [List.cons_append, tokensFrom, if_pos hb, ih.2]
    · have hc : IsBare c := ⟨hs, hd, by simpa using hb⟩
      have hnone (token : List Char) : tokensFrom (.bare token) (c :: (cs ++ rest)) = none := by
        rw [tokensFrom, if_neg hb, hc.outside, ih.1]
      exact ⟨hnone, by rw [List.cons_append, tokensFrom_begin hc.blank, hnone]⟩
  | single hs _ ih => simpa using piece (.single hs) ih.1
  | double he _ ih => simpa using piece (.double he) ih.1

theorem EndsInQuote.tokensFrom_eq (h : EndsInQuote line) : tokensFrom .between line = none := by
  obtain ⟨before, rest, rfl, hb, hr⟩ := h
  exact (hb.tokensFrom_eq hr).2

theorem Closed.append (h : Closed s) (h' : Closed w) : Closed (s ++ w) := by
  induction h with
  | nil => exact h'
  | other hs hd _ ih => exact .other hs hd ih
  | single hs _ ih =>
    rw [List.cons_append, List.append_assoc]
    exact .single hs ih
  | double he _ ih =>
    rw [List.cons_append, List.append_assoc]
    exact .double he ih

theorem closed_of_bare (h : ∀ c ∈ s, IsBare c) : Closed s := by
  induction s with
  | nil => exact .nil
  | cons c s ih =>
    obtain ⟨hc, hs⟩ := List.forall_mem_cons.mp h
    exact .other hc.single hc.double (ih hs)

theorem Piece.closed (h : Piece s w) : Closed w := by
  cases h with
  | bare _ hs => exact closed_of_bare hs
  | single hs => exact .single hs .nil
  | double he => exact .double he .nil

theorem Token.closed (h : Token s w) : Closed w := by
  induction h with
  | piece h => exact h.closed
  | cons h _ ih => exact h.closed.append ih

theorem closed_of_blanks (h : ∀ c ∈ gap, isBlank c) : Closed gap := by
  induction gap with
  | nil => exact .nil
  | cons c gap ih =>
    obtain ⟨hc, hg⟩ := List.forall_mem_cons.mp h
    refine .other ?_ ?_ (ih hg) <;> rintro rfl <;> exact absurd hc (by decide)

theorem EndsInQuote.prepend (h : Closed s) (he : EndsInQuote line) : EndsInQuote (s ++ line) := by
  obtain ⟨before, rest, rfl, hb, hr⟩ := he
  exact ⟨s ++ before, rest, (List.append_assoc ..).symm, h.append hb, hr⟩

/-- A token at the start of a line, with no gap before it. -/
theorem Spells.tokenFirst (hs : Spells ts rest) (ht : Token text.toList w)
    (apart : ∀ c ∈ rest.head?, isBlank c) : Spells (text :: ts) (w ++ rest) :=
  have hgap : ∀ c ∈ ([] : List Char), isBlank c := by simp
  .cons hgap ht apart hs

theorem Spells.prepend (h : isBlank c) (hs : Spells ts line) : Spells ts (c :: line) := by
  cases hs with
  | nil hg => exact .nil (List.forall_mem_cons.mpr ⟨h, hg⟩)
  | cons hg ht apart more => exact .cons (List.forall_mem_cons.mpr ⟨h, hg⟩) ht apart more

/-- After an opening double quote comes the closing one, or the line ends before it. -/
theorem escaped_or_open : ∀ cs : List Char,
    (∃ s w rest, Escaped s w ∧ cs = w ++ '"' :: rest) ∨ Unclosed ('"' :: cs)
  | [] => .inr (.double .nil)
  | c :: cs => by
    by_cases hq : c = '"'
    · subst hq
      exact .inl ⟨[], [], cs, .nil, rfl⟩
    by_cases hb : c = '\\'
    · subst hb
      match cs with
      | [] => exact .inr (.backslash .nil)
      | e :: cs =>
        rcases escaped_or_open cs with ⟨s, w, rest, h, rfl⟩ | h
        · exact .inl ⟨_, _, rest, h.letter e, rfl⟩
        · cases h with
          | double h => exact .inr (.double (h.letter e))
          | backslash h => exact .inr (.backslash (h.letter e))
    · rcases escaped_or_open cs with ⟨s, w, rest, h, rfl⟩ | h
      · exact .inl ⟨_, _, rest, h.raw hq hb, rfl⟩
      · cases h with
        | double h => exact .inr (.double (h.raw hq hb))
        | backslash h => exact .inr (.backslash (h.raw hq hb))

theorem piece_or_open (h : isBlank c = false) (cs : List Char) :
    (∃ s w rest, Piece s w ∧ c :: cs = w ++ rest) ∨ Unclosed (c :: cs) := by
  by_cases hs : c = '\''
  · subst hs
    by_cases hm : '\'' ∈ cs
    · obtain ⟨s, rest, rfl, hs⟩ := List.eq_append_cons_of_mem hm
      exact .inl ⟨s, _, rest, .single hs, by simp⟩
    · exact .inr (.single hm)
  by_cases hd : c = '"'
  · subst hd
    rcases escaped_or_open cs with ⟨s, w, rest, h, rfl⟩ | h
    · exact .inl ⟨s, _, rest, .double h, by simp⟩
    · exact .inr h
  · exact .inl ⟨[c], [c], cs, .bare (by simp) (by simpa using ⟨hs, hd, h⟩), rfl⟩

/-- A character that is not blank begins a token, unless a quote in it stays open. -/
theorem token_or_open {c : Char} (cs : List Char) (h : isBlank c = false) :
    (∃ s w rest, Token s w ∧ c :: cs = w ++ rest ∧ ∀ c ∈ rest.head?, isBlank c) ∨
      EndsInQuote (c :: cs) := by
  rcases piece_or_open h cs with ⟨s, w, rest, hp, he⟩ | hu
  · by_cases apart : ∀ c ∈ rest.head?, isBlank c
    · exact .inl ⟨s, w, rest, .piece hp, he, apart⟩
    · -- The next piece stands right behind this one.
      match rest, apart with
      | [], apart => exact absurd (by simp) apart
      | d :: rest, apart =>
        have hd : isBlank d = false := by simpa using apart
        have hlt : rest.length < cs.length := by
          have hlen := (Token.piece hp).length_lt (d :: rest)
          rwa [← he, List.length_cons, List.length_cons, Nat.add_lt_add_iff_right] at hlen
        rcases token_or_open rest hd with ⟨s', w', rest', ht, he', apart'⟩ | hends
        · exact .inl ⟨s ++ s', w ++ w', rest', .cons hp ht, by rw [he, he', List.append_assoc],
            apart'⟩
        · exact .inr (he ▸ hends.prepend hp.closed)
  · exact .inr ⟨[], _, rfl, .nil, hu⟩
termination_by cs.length

theorem spells_or_ends : ∀ line : List Char, (∃ ts, Spells ts line) ∨ EndsInQuote line
  | [] => .inl ⟨[], .nil (by simp)⟩
  | c :: cs => by
    by_cases hb : isBlank c = true
    · rcases spells_or_ends cs with ⟨ts, hs⟩ | he
      · exact .inl ⟨ts, hs.prepend hb⟩
      · have hblank : ∀ d ∈ [c], isBlank d := List.forall_mem_singleton.mpr hb
        exact .inr (he.prepend (closed_of_blanks hblank))
    · rcases token_or_open cs (by simpa using hb) with ⟨s, w, rest, ht, he, apart⟩ | hends
      · have hlt : rest.length < cs.length + 1 := by
          rw [← List.length_cons, he]
          exact ht.length_lt rest
        rw [he]
        rcases spells_or_ends rest with ⟨ts, hs⟩ | hends
        · rw [← String.toList_ofList (l := s)] at ht
          exact .inl ⟨String.ofList s :: ts, hs.tokenFirst ht apart⟩
        · exact .inr (hends.prepend ht.closed)
      · exact .inr hends
termination_by line => line.length

theorem exists_escaped (s : List Char) : ∃ w, Escaped s w := by
  induction s with
  | nil => exact ⟨[], .nil⟩
  | cons c s ih =>
    obtain ⟨w, h⟩ := ih
    by_cases hq : c = '"'
    · exact ⟨_, h.self (by simp [hq]) (by simp [hq]) (by simp [hq])⟩
    by_cases hb : c = '\\'
    · exact ⟨_, h.self (by simp [hb]) (by simp [hb]) (by simp [hb])⟩
    · exact ⟨_, h.raw hq hb⟩

theorem exists_spells (ts : List String) : ∃ line, Spells ts (' ' :: line) := by
  induction ts with
  | nil => exact ⟨[], .nil (List.forall_mem_singleton.mpr (by decide))⟩
  | cons text ts ih =>
    obtain ⟨line, hl⟩ := ih
    obtain ⟨w, hw⟩ := exists_escaped text.toList
    have apart : ∀ c ∈ (' ' :: line).head?, isBlank c := by
      rintro c ⟨⟩
      decide
    exact ⟨_, (hl.tokenFirst (.piece (.double hw)) apart).prepend (by decide)⟩

/-- Reading a line undoes writing its tokens, however each of them is written. A line is read as a list
of tokens if and only if it spells that list, and it is refused if and only if it ends inside a quote.
Every list of texts can be typed. -/
theorem tokens?_undoes_quoting :
    (∀ line ts, tokens? line = some ts ↔ Spells ts line.toList) ∧
    (∀ line, tokens? line = none ↔ EndsInQuote line.toList) ∧
    ∀ ts, ∃ line, tokens? line = some ts := by
  have read (line : String) (ts : List String) : tokens? line = some ts ↔ Spells ts line.toList := by
    refine ⟨fun h => ?_, Spells.tokensFrom_eq⟩
    rcases spells_or_ends line.toList with ⟨ts', hs⟩ | he
    · cases h.symm.trans hs.tokensFrom_eq
      exact hs
    · cases h.symm.trans he.tokensFrom_eq
  refine ⟨read, fun line => ⟨fun h => ?_, EndsInQuote.tokensFrom_eq⟩, fun ts => ?_⟩
  · rcases spells_or_ends line.toList with ⟨ts, hs⟩ | he
    · cases h.symm.trans hs.tokensFrom_eq
    · exact he
  · obtain ⟨line, hl⟩ := exists_spells ts
    exact ⟨String.ofList (' ' :: line), (read _ ts).mpr (by rwa [String.toList_ofList])⟩

example : tokens? "SET k \"a\\\"b\\n\" 'it''s' \"\"" = some ["SET", "k", "a\"b\n", "its", ""] := by
  decide +kernel

end RespClient.Shell
