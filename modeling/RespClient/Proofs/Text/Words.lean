import RespClient.Text.Blank
import Mathlib.Data.List.DropRight

namespace RespClient.Text

/-- Words with blanks between them, and perhaps before and after them. -/
inductive Words (blank : Char → Bool) : List (List Char) → List Char → Prop
  | nil {gap : List Char} (blanks : ∀ c ∈ gap, blank c) : Words blank [] gap
  | cons {gap w rest : List Char} {ws : List (List Char)} (blanks : ∀ c ∈ gap, blank c)
      (filled : w ≠ []) (solid : ∀ c ∈ w, ¬blank c) (apart : ∀ c ∈ rest.head?, blank c)
      (more : Words blank ws rest) : Words blank (w :: ws) (gap ++ (w ++ rest))

section Words

variable {blank : Char → Bool} {c d : Char} {w gap rest cs : List Char} {ws : List (List Char)}

theorem wordsBy_gap (h : ∀ c ∈ gap, blank c) (cs : List Char) :
    wordsBy blank (gap ++ cs) = wordsBy blank cs := by
  induction gap with
  | nil => rfl
  | cons c gap ih =>
    obtain ⟨hc, hgap⟩ := List.forall_mem_cons.mp h
    rw [List.cons_append, wordsBy.eq_def]
    simp only [hc, if_true, ih hgap]

theorem wordsBy_solid (filled : w ≠ []) (solid : ∀ c ∈ w, ¬blank c)
    (apart : ∀ c ∈ rest.head?, blank c) :
    wordsBy blank (w ++ rest) = w :: wordsBy blank rest := by
  induction w with
  | nil => exact absurd rfl filled
  | cons c w ih =>
    obtain ⟨hc, hw⟩ := List.forall_mem_cons.mp solid
    rw [List.cons_append, wordsBy.eq_def]
    dsimp only
    rw [if_neg hc]
    cases w with
    | nil =>
      cases rest with
      | nil => rfl
      | cons d rest => exact if_pos (apart d rfl)
    | cons d w =>
      have htail := ih (List.cons_ne_nil d w) hw
      rw [List.cons_append] at htail ⊢
      dsimp only
      rw [if_neg (List.forall_mem_cons.mp hw).1, htail]

theorem Words.wordsBy_eq (h : Words blank ws cs) : wordsBy blank cs = ws := by
  induction h with
  | nil blanks => simpa [wordsBy] using wordsBy_gap blanks []
  | cons blanks filled solid apart _ ih =>
    rw [wordsBy_gap blanks, wordsBy_solid filled solid apart, ih]

theorem Words.prepend (hc : blank c) (h : Words blank ws cs) : Words blank ws (c :: cs) := by
  cases h with
  | nil blanks => exact .nil (List.forall_mem_cons.mpr ⟨hc, blanks⟩)
  | @cons gap w rest _ blanks filled solid apart more =>
    have hgap : ∀ d ∈ c :: gap, blank d := List.forall_mem_cons.mpr ⟨hc, blanks⟩
    exact .cons hgap filled solid apart more

/-- A character belongs to the word that it stands right before. -/
theorem Words.extend (hc : ¬blank c) (hd : ¬blank d) (h : Words blank ws (d :: cs)) :
    ∃ w ws', Words blank ((c :: w) :: ws') (c :: d :: cs) := by
  generalize he : d :: cs = ds at h
  cases h with
  | nil blanks =>
    subst he
    exact absurd (blanks d List.mem_cons_self) hd
  | @cons gap w rest ws blanks filled solid apart more =>
    cases gap with
    | nil =>
      have hsolid : ∀ e ∈ c :: w, ¬blank e := List.forall_mem_cons.mpr ⟨hc, solid⟩
      exact ⟨w, ws, .cons blanks (List.cons_ne_nil c w) hsolid apart more⟩
    | cons e gap =>
      cases he
      exact absurd (blanks d List.mem_cons_self) hd

theorem exists_words (blank : Char → Bool) (cs : List Char) : ∃ ws, Words blank ws cs := by
  induction cs with
  | nil => exact ⟨[], .nil (List.forall_mem_nil _)⟩
  | cons c cs ih =>
    obtain ⟨ws, h⟩ := ih
    by_cases hc : blank c
    · exact ⟨ws, h.prepend hc⟩
    by_cases apart : ∀ d ∈ cs.head?, blank d
    · have hgap : ∀ d ∈ ([] : List Char), blank d := List.forall_mem_nil _
      have hsolid : ∀ d ∈ [c], ¬blank d := List.forall_mem_singleton.mpr hc
      exact ⟨[c] :: ws, .cons hgap (List.cons_ne_nil c []) hsolid apart h⟩
    · cases cs with
      | nil => exact absurd nofun apart
      | cons d cs =>
        have hd : ¬blank d := fun hb => apart fun e he => by cases he; exact hb
        obtain ⟨w, ws', h'⟩ := h.extend hc hd
        exact ⟨_, h'⟩

theorem wordsBy_eq_iff : wordsBy blank cs = ws ↔ Words blank ws cs := by
  refine ⟨fun h => ?_, Words.wordsBy_eq⟩
  obtain ⟨ws', h'⟩ := exists_words blank cs
  rwa [← h, h'.wordsBy_eq]

end Words

/-- A text that is cut nowhere. -/
structure IsWord (s : String) : Prop where
  filled : s.toList ≠ []
  solid : ∀ c ∈ s.toList, ¬isAsciiBlank c

variable {s w : String}

theorem words_eq_nil : words s = [] ↔ ∀ c ∈ s.toList, isAsciiBlank c := by
  rw [words, List.map_eq_nil_iff, wordsBy_eq_iff]
  constructor
  · rintro ⟨blanks⟩
    exact blanks
  · exact .nil

/-- A text has one word if nothing but blanks is around it. -/
theorem words_eq_singleton :
    words s = [w] ↔ ∃ before after, s.toList = before ++ (w.toList ++ after) ∧ IsWord w ∧
      (∀ c ∈ before, isAsciiBlank c) ∧ ∀ c ∈ after, isAsciiBlank c := by
  rw [words, List.map_eq_singleton_iff]
  simp only [wordsBy_eq_iff]
  constructor
  · rintro ⟨cs, h, rfl⟩
    generalize s.toList = text at h ⊢
    cases h with
    | @cons before _ after _ blanks filled solid apart more =>
      cases more with
      | nil blanks' =>
        rw [← String.toList_ofList (l := cs)] at filled solid
        exact ⟨before, after, by rw [String.toList_ofList], ⟨filled, solid⟩, blanks, blanks'⟩
  · rintro ⟨before, after, he, hw, blanks, blanks'⟩
    refine ⟨w.toList, ?_, String.ofList_toList⟩
    have apart : ∀ c ∈ after.head?, isAsciiBlank c := by
      intro c hc
      exact blanks' c (List.mem_of_mem_head? hc)
    rw [he]
    exact .cons blanks hw.filled hw.solid apart (.nil blanks')

theorem IsWord.words_eq (h : IsWord s) : words s = [s] :=
  words_eq_singleton.mpr ⟨[], [], by simp, h, List.forall_mem_nil _, List.forall_mem_nil _⟩

theorem isWord_of_words_eq (h : words s = [w]) : IsWord w := by
  obtain ⟨-, -, -, hw, -⟩ := words_eq_singleton.mp h
  exact hw

theorem toUpper_of_isBlank {c : Char} (h : isBlank c) : c.toUpper = c := by
  have hlower : ¬('a'.val ≤ c.val ∧ c.val ≤ 'z'.val) := by
    rintro ⟨ha, hz⟩
    have ha' : 97 ≤ c.toNat := UInt32.le_iff_toNat_le.mp ha
    have hz' : c.toNat ≤ 122 := UInt32.le_iff_toNat_le.mp hz
    simp only [isBlank, Bool.or_eq_true, Bool.and_eq_true, decide_eq_true_eq] at h
    omega
  exact dif_neg hlower

theorem isBlank_of_isAsciiBlank {c : Char} (h : isAsciiBlank c) : isBlank c := by
  simp only [isAsciiBlank, Bool.or_eq_true, decide_eq_true_eq] at h
  rcases h with (((rfl | rfl) | rfl) | rfl) | rfl <;> decide

theorem trim_eq (s : String) :
    trim s = String.ofList ((s.toList.dropWhile isBlank).rdropWhile isBlank) := rfl

section

variable {p : Char → Bool} {before cs after : List Char}

theorem rdropWhile_append_of_pos (h : ∀ c ∈ after, p c) (cs : List Char) :
    (cs ++ after).rdropWhile p = cs.rdropWhile p := by
  rw [List.rdropWhile, List.reverse_append, List.dropWhile_append_of_pos (by simpa using h),
    List.rdropWhile]

theorem strip_append (hb : ∀ c ∈ before, p c) (ha : ∀ c ∈ after, p c) (cs : List Char) :
    ((before ++ (cs ++ after)).dropWhile p).rdropWhile p = (cs.dropWhile p).rdropWhile p := by
  rw [List.dropWhile_append_of_pos hb, List.dropWhile_append]
  split
  next he =>
    rw [List.isEmpty_iff.mp he, List.dropWhile_eq_nil_iff.mpr ha]
  next => exact rdropWhile_append_of_pos ha _

end

theorem trim_of_words_eq (h : words s = [w]) : trim s = trim w := by
  obtain ⟨before, after, he, -, hb, ha⟩ := words_eq_singleton.mp h
  have hb' : ∀ c ∈ before, isBlank c := fun c hc => isBlank_of_isAsciiBlank (hb c hc)
  have ha' : ∀ c ∈ after, isBlank c := fun c hc => isBlank_of_isAsciiBlank (ha c hc)
  rw [trim_eq, he, strip_append hb' ha', trim_eq]

theorem trim_eq_self (h : ∀ c ∈ s.toList, ¬isBlank c) : trim s = s := by
  have hd : s.toList.dropWhile isBlank = s.toList := by
    rw [List.dropWhile_eq_self_iff]
    intro hl
    exact h _ (List.getElem_mem _)
  have hr : s.toList.rdropWhile isBlank = s.toList := by
    rw [List.rdropWhile_eq_self_iff]
    exact fun hl => h _ (List.getLast_mem hl)
  rw [trim_eq, hd, hr, String.ofList_toList]

end RespClient.Text
