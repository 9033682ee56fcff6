import Mathlib.Data.List.Forall2
import Mathlib.Data.List.Induction
import Mathlib.Data.List.Nodup
import Mathlib.Data.List.Sort
import RespClient.Cluster.SlotTable
import RespClient.Proofs.Text.Numeral
import RespClient.Proofs.Text.Utf8

namespace RespClient

open Text.Numeral (Spells)

/-- A status, or a bulk with the UTF-8 bytes of the text. -/
inductive Reply.IsText : Reply → String → Prop
  | status (text : String) : IsText (.status text) text
  | bulk (text : String) : IsText (.bulk (some (Bytes.ofText text))) text

/-- An integer, or a text that spells it. -/
inductive Reply.IsNumber : Reply → Int → Prop
  | integer (n : Int) : IsNumber (.integer n) n
  | text {r : Reply} {text : String} {n : Int} (ht : r.IsText text) (hn : Spells text.toList n) :
      IsNumber r n

namespace Reply

variable {r : Reply}

theorem text?_eq_some {text : String} : r.text? = some text ↔ r.IsText text := by
  constructor
  · intro h
    cases r with
    | status s => cases h; exact .status _
    | bulk data =>
      cases data with
      | none => cases h
      | some data =>
        have hd := Text.Utf8.strict?_eq_some.mp h
        rw [hd]
        exact .bulk text
    | _ => cases h
  · intro h
    cases h with
    | status => rfl
    | bulk => exact Text.Utf8.strict?_eq_some.mpr rfl

theorem number?_eq_some {n : Int} : r.number? = some n ↔ r.IsNumber n := by
  have spelled : (r.text?.bind fun s => Text.Numeral.int64? s.toList) = some n ↔
      ∃ text, r.IsText text ∧ Spells text.toList n := by
    simp only [Option.bind_eq_some_iff, text?_eq_some, Text.Numeral.int64?_eq_some]
  constructor
  · intro h
    cases r with
    | integer m => cases h; exact .integer _
    | status | error | bulk | multi =>
      obtain ⟨text, ht, hn⟩ := spelled.mp h
      exact .text ht hn
  · intro h
    cases h with
    | integer => rfl
    | text ht hn => cases ht <;> exact spelled.mpr ⟨_, by constructor, hn⟩

theorem items?_eq_some {items : List Reply} : r.items? = some items ↔ r = .multi (some items) := by
  cases r <;> simp [items?]

end Reply

namespace Cluster

/-- A list of a host, a port, and anything after them. An empty host stands for the one that
answered. -/
inductive IsNode (origin : String) : Reply → String → Prop
  | mk {host port : Reply} {rest : List Reply} {name : String} {n : Int} (hh : host.IsText name)
      (hp : port.IsNumber n) (hl : 1 ≤ n) (hu : n ≤ 65535) :
      IsNode origin (.multi (some (host :: port :: rest)))
        (Address.join (if name = "" then origin else name) n.toNat)

/-- A list of two slots in order and of one or more nodes. -/
inductive IsRange (origin : String) : Reply → SlotRange → Prop
  | mk {first last : Reply} {nodes : List Reply} {range : SlotRange}
      (hf : first.IsNumber range.first.val) (hl : last.IsNumber range.last.val)
      (ho : range.first ≤ range.last) (hn : nodes ≠ [])
      (hs : List.Forall₂ (IsNode origin) nodes range.nodes) :
      IsRange origin (.multi (some (first :: last :: nodes))) range

/-- A list of ranges. -/
inductive IsAnswer (origin : String) : Reply → List SlotRange → Prop
  | mk {entries : List Reply} {ranges : List SlotRange}
      (h : List.Forall₂ (IsRange origin) entries ranges) :
      IsAnswer origin (.multi (some entries)) ranges

def SlotRange.covers (range : SlotRange) (slot : Nat) : Bool :=
  range.first ≤ slot && slot ≤ range.last

section Reading

variable {origin : String} {r : Reply}

theorem slotBound_eq_ok {slot : Slot} : slotBound r = .ok slot ↔ r.IsNumber slot.val := by
  rw [← Reply.number?_eq_some]
  unfold slotBound
  constructor
  · intro h
    split at h
    next n hn =>
      split at h
      next hb =>
        cases h
        rw [hn, Int.toNat_of_nonneg hb.1]
      · cases h
    · cases h
  · intro h
    rw [h]
    simp only [Int.natCast_nonneg, Int.toNat_natCast, slot.isLt, and_self, dif_pos]

theorem nodeAddress_eq_ok {address : String} :
    nodeAddress origin r = .ok address ↔ IsNode origin r address := by
  constructor
  · intro h
    unfold nodeAddress at h
    split at h
    next host port rest hr =>
      split at h
      · cases h
      next name hname =>
        split at h
        · cases h
        next n hn =>
          split at h
          next hb =>
            cases h
            rw [Reply.items?_eq_some.mp hr]
            simp only [String.isEmpty_iff]
            exact .mk (Reply.text?_eq_some.mp hname) (Reply.number?_eq_some.mp hn) hb.1 hb.2
          · cases h
    · cases h
  · intro h
    obtain ⟨hh, hp, hl, hu⟩ := h
    unfold nodeAddress
    simp only [Reply.items?, Reply.text?_eq_some.mpr hh, Reply.number?_eq_some.mpr hp,
      if_pos (And.intro hl hu), String.isEmpty_iff]

theorem bind_eq_ok {α β ε : Type} {x : Except ε α} {f : α → Except ε β} {b : β} :
    (x >>= f) = .ok b ↔ ∃ a, x = .ok a ∧ f a = .ok b := by
  cases x with
  | error e => simp [bind, Except.bind]
  | ok a => simp [bind, Except.bind]

/-- A traversal that may fail succeeds if and only if each element does. -/
theorem mapM_eq_ok {α β ε : Type} {f : α → Except ε β} {xs : List α} {ys : List β} :
    xs.mapM f = .ok ys ↔ List.Forall₂ (fun x y => f x = .ok y) xs ys := by
  induction xs generalizing ys with
  | nil => simp [pure, Except.pure, eq_comm]
  | cons x xs ih =>
    simp only [List.mapM_cons, bind_eq_ok, ih, pure, Except.pure, Except.ok.injEq,
      List.forall₂_cons_left_iff]
    constructor
    · rintro ⟨y, hy, ys', hys, rfl⟩
      exact ⟨y, ys', hy, hys, rfl⟩
    · rintro ⟨y, ys', hy, hys, rfl⟩
      exact ⟨y, hy, ys', hys, rfl⟩

theorem rangeOfReply_eq_ok {range : SlotRange} :
    SlotRange.ofReply origin r = .ok range ↔ IsRange origin r range := by
  constructor
  · intro h
    unfold SlotRange.ofReply at h
    split at h
    · cases h
    next first last node nodes hr =>
      obtain ⟨slot, hf, h⟩ := bind_eq_ok.mp h
      obtain ⟨slot', hl, h⟩ := bind_eq_ok.mp h
      split at h
      · cases h
      next ho =>
        obtain ⟨names, hs, h⟩ := bind_eq_ok.mp h
        cases h
        rw [Reply.items?_eq_some.mp hr]
        have hn := (mapM_eq_ok.mp hs).imp fun _ _ => nodeAddress_eq_ok.mp
        exact .mk (slotBound_eq_ok.mp hf) (slotBound_eq_ok.mp hl) (Fin.not_lt.mp ho) (by simp) hn
    · cases h
  · intro h
    obtain ⟨hf, hl, ho, hn, hs⟩ := h
    have hs' := mapM_eq_ok.mpr (hs.imp fun _ _ => nodeAddress_eq_ok.mpr)
    obtain ⟨node, nodes, rfl⟩ := List.exists_cons_of_ne_nil hn
    unfold SlotRange.ofReply
    simp only [Reply.items?]
    refine bind_eq_ok.mpr ⟨_, slotBound_eq_ok.mpr hf, bind_eq_ok.mpr ⟨_, slotBound_eq_ok.mpr hl, ?_⟩⟩
    rw [if_neg (Fin.not_lt.mpr ho)]
    exact bind_eq_ok.mpr ⟨_, hs', rfl⟩

theorem foldlM_add_eq_ok {entries : List Reply} {t t' : SlotTable} :
    entries.foldlM (fun t e => return t.add (← SlotRange.ofReply origin e)) t = .ok t' ↔
      ∃ ranges, List.Forall₂ (IsRange origin) entries ranges ∧ ranges.foldl SlotTable.add t = t' := by
  induction entries generalizing t with
  | nil => simp [pure, Except.pure]
  | cons e entries ih =>
    rw [List.foldlM_cons]
    constructor
    · intro h
      obtain ⟨t₁, hstep, h⟩ := bind_eq_ok.mp h
      obtain ⟨range, hr, hstep⟩ := bind_eq_ok.mp hstep
      cases hstep
      obtain ⟨ranges, hrs, ht⟩ := ih.mp h
      exact ⟨range :: ranges, .cons (rangeOfReply_eq_ok.mp hr) hrs, ht⟩
    · rintro ⟨_, hrs, ht⟩
      cases hrs with
      | cons hr hrs =>
        refine bind_eq_ok.mpr ⟨_, ?_, ih.mpr ⟨_, hrs, ht⟩⟩
        exact bind_eq_ok.mpr ⟨_, rangeOfReply_eq_ok.mpr hr, rfl⟩

theorem ofReply_eq_ok {t : SlotTable} :
    SlotTable.ofReply origin r = .ok t ↔
      ∃ ranges, IsAnswer origin r ranges ∧ ranges.foldl SlotTable.add .empty = t := by
  unfold SlotTable.ofReply
  constructor
  · intro h
    split at h
    · cases h
    next entries hr =>
      obtain ⟨ranges, hrs, ht⟩ := foldlM_add_eq_ok.mp h
      rw [Reply.items?_eq_some.mp hr]
      exact ⟨ranges, .mk hrs, ht⟩
  · rintro ⟨ranges, ⟨hrs⟩, ht⟩
    exact foldlM_add_eq_ok.mpr ⟨ranges, hrs, ht⟩

end Reading

namespace SlotTable

theorem paint_size (owner : Array (Option Nat)) (id first n : Nat) :
    (paint owner id first n).size = owner.size := by
  induction n with
  | zero => rfl
  | succ n ih => rw [paint, Array.size_setIfInBounds, ih]

theorem getElem?_paint {owner : Array (Option Nat)} {id first n slot : Nat}
    (h : slot < owner.size) :
    (paint owner id first n)[slot]? =
      if first ≤ slot ∧ slot < first + n then some (some id) else owner[slot]? := by
  induction n with
  | zero =>
    rw [paint, if_neg (by omega)]
  | succ n ih =>
    rw [paint, Array.getElem?_setIfInBounds, ih, paint_size]
    by_cases hs : first + n = slot
    · rw [if_pos hs, if_pos (by omega), if_pos (by omega)]
    · rw [if_neg hs]
      by_cases hr : first ≤ slot ∧ slot < first + n
      · rw [if_pos hr, if_pos (by omega)]
      · rw [if_neg hr, if_neg (by omega)]

def ofRanges (ranges : List SlotRange) : SlotTable := ranges.foldl add empty

theorem ofRanges_concat (ranges : List SlotRange) (range : SlotRange) :
    ofRanges (ranges ++ [range]) = (ofRanges ranges).add range := by
  rw [ofRanges, List.foldl_append]
  rfl

theorem eraseDups_concat {α : Type} [BEq α] [LawfulBEq α] (xs : List α) (x : α) :
    (xs ++ [x]).eraseDups = if x ∈ xs then xs.eraseDups else xs.eraseDups ++ [x] := by
  rw [List.eraseDups_append]
  split
  next h => simp [List.removeAll, h]
  next h => simp [List.removeAll, h, List.eraseDups_cons]

variable {ranges : List SlotRange}

/-- Each list of nodes has one shard, in the order in which they come. -/
theorem shards_ofRanges (ranges : List SlotRange) :
    (ofRanges ranges).shards.toList = (ranges.map (·.nodes)).eraseDups := by
  induction ranges using List.reverseRecOn with
  | nil => rfl
  | append_singleton ranges range ih =>
    rw [ofRanges_concat, List.map_append, List.map_singleton, eraseDups_concat]
    have hmem : range.nodes ∈ (ofRanges ranges).shards.toList ↔
        range.nodes ∈ ranges.map (·.nodes) := by
      rw [ih, List.mem_eraseDups]
    have hid : shardId (ofRanges ranges).shards range.nodes = (ofRanges ranges).shards.size ↔
        range.nodes ∉ (ofRanges ranges).shards.toList := by
      rw [shardId, ← Array.length_toList, List.idxOf_eq_length_iff]
    unfold add
    simp only [hid, hmem]
    by_cases h : range.nodes ∈ ranges.map (·.nodes)
    · rw [if_neg (not_not_intro h), if_pos h, ih]
    · rw [if_pos h, if_neg h, Array.toList_push, ih]

theorem owner_size_ofRanges (ranges : List SlotRange) :
    (ofRanges ranges).owner.size = slotCount := by
  induction ranges using List.reverseRecOn with
  | nil => exact Array.size_replicate
  | append_singleton ranges range ih =>
    rw [ofRanges_concat, add, paint_size, ih]

/-- The number that a range gives to its slots is that of its nodes. -/
theorem getElem?_shards_add (t : SlotTable) (range : SlotRange) :
    (t.add range).shards[shardId t.shards range.nodes]? = some range.nodes := by
  unfold add
  by_cases h : range.nodes ∈ t.shards.toList
  · have hlt : shardId t.shards range.nodes < t.shards.size := by
      rw [shardId, ← Array.length_toList]
      exact List.idxOf_lt_length_iff.mpr h
    simp only [if_neg (Nat.ne_of_lt hlt)]
    rw [← Array.getElem?_toList, List.getElem?_eq_getElem (by simpa using hlt)]
    exact congrArg some (List.getElem_idxOf (by simpa [shardId] using hlt))
  · have heq : shardId t.shards range.nodes = t.shards.size := by
      rw [shardId, ← Array.length_toList]
      exact List.idxOf_eq_length_iff.mpr h
    simp only [if_pos heq]
    rw [heq, Array.getElem?_push_size]

theorem getElem?_shards_add_of_lt {t : SlotTable} {id : Nat} (h : id < t.shards.size)
    (range : SlotRange) : (t.add range).shards[id]? = t.shards[id]? := by
  unfold add
  simp only
  split
  · rw [Array.getElem?_push, if_neg (Nat.ne_of_lt h)]
  · rfl

theorem shards_size_le_add (t : SlotTable) (range : SlotRange) :
    t.shards.size ≤ (t.add range).shards.size := by
  unfold add
  simp only
  split
  · rw [Array.size_push]
    exact Nat.le_succ _
  · exact Nat.le_refl _

theorem shards_size_ofRanges_le (ranges : List SlotRange) :
    (ofRanges ranges).shards.size ≤ ranges.length := by
  induction ranges using List.reverseRecOn with
  | nil => exact Nat.le_refl 0
  | append_singleton ranges range ih =>
    rw [ofRanges_concat, add, List.length_append, List.length_singleton]
    simp only
    split
    · rw [Array.size_push]
      exact Nat.succ_le_succ ih
    · exact Nat.le_succ_of_le ih

/-- A slot of a new range has the new number, and any other slot what it had. -/
theorem getElem?_owner_add {t : SlotTable} (ho : t.owner.size = slotCount) {range : SlotRange}
    (hr : range.first ≤ range.last) (slot : Nat) :
    (t.add range).owner[slot]? = if range.covers slot then some (some (shardId t.shards range.nodes))
      else t.owner[slot]? := by
  have hle : range.first.val ≤ range.last.val := hr
  have hcov : range.covers slot = true ↔ range.first.val ≤ slot ∧ slot ≤ range.last.val := by
    simp [SlotRange.covers]
  unfold add
  simp only
  by_cases hs : slot < t.owner.size
  · rw [getElem?_paint hs]
    by_cases hc : range.covers slot = true
    · rw [if_pos hc, if_pos]
      have := hcov.mp hc
      omega
    · rw [if_neg hc, if_neg]
      intro hin
      exact hc (hcov.mpr (by omega))
  · have hlast := range.last.isLt
    have hc : ¬ range.covers slot = true := by
      intro hc
      have := hcov.mp hc
      omega
    rw [if_neg hc, Array.getElem?_eq_none (by rw [paint_size]; omega),
      Array.getElem?_eq_none (by omega)]

theorem lt_of_owner (hr : ∀ range ∈ ranges, range.first ≤ range.last) {slot id : Nat}
    (h : (ofRanges ranges).owner[slot]? = some (some id)) : id < (ofRanges ranges).shards.size := by
  induction ranges using List.reverseRecOn generalizing id with
  | nil =>
    simp only [ofRanges, List.foldl_nil, empty, Array.getElem?_replicate] at h
    split at h <;> cases h
  | append_singleton ranges range ih =>
    rw [ofRanges_concat] at h ⊢
    rw [getElem?_owner_add (owner_size_ofRanges ranges) (hr range (by simp))] at h
    split at h
    · cases h
      exact (Array.getElem?_eq_some_iff.mp (getElem?_shards_add _ range)).1
    · have hlt := ih (fun range' h' => hr range' (List.mem_append_left _ h')) h
      exact Nat.lt_of_lt_of_le hlt (shards_size_le_add _ range)

/-- A slot has the nodes of the last range that covers it. -/
theorem shard?_ofRanges (hr : ∀ range ∈ ranges, range.first ≤ range.last) (slot : Nat) :
    (ofRanges ranges).shard? slot = ((ranges.filter (·.covers slot)).getLast?).map (·.nodes) := by
  induction ranges using List.reverseRecOn with
  | nil =>
    simp only [ofRanges, List.foldl_nil, shard?, empty, Array.getElem?_replicate]
    split
    next h => split at h <;> cases h
    · rfl
  | append_singleton ranges range ih =>
    have hold := fun range' h' => hr range' (List.mem_append_left [range] h')
    have howner := getElem?_owner_add (owner_size_ofRanges ranges) (hr range (by simp)) slot
    rw [ofRanges_concat, List.filter_append]
    by_cases hc : range.covers slot = true
    · rw [if_pos hc] at howner
      rw [List.filter_cons, if_pos hc, List.filter_nil, List.getLast?_concat]
      simp only [shard?, howner, getElem?_shards_add, Option.map_some]
    · rw [if_neg hc] at howner
      have hshard : ((ofRanges ranges).add range).shard? slot = (ofRanges ranges).shard? slot := by
        simp only [shard?, howner]
        split
        next id h => exact getElem?_shards_add_of_lt (lt_of_owner hold h) range
        · rfl
      rw [List.filter_cons, if_neg hc, List.filter_nil, List.append_nil, hshard, ih hold]

theorem nodup_eraseDups {α : Type} [BEq α] [LawfulBEq α] (xs : List α) : xs.eraseDups.Nodup := by
  induction xs using List.reverseRecOn with
  | nil => simp
  | append_singleton xs x ih =>
    rw [eraseDups_concat]
    split
    · exact ih
    next h =>
      refine List.nodup_append.mpr ⟨ih, List.nodup_singleton x, ?_⟩
      intro a ha b hb hab
      rw [List.mem_singleton.mp hb] at hab
      exact h (hab ▸ List.mem_eraseDups.mp ha)

theorem nodup_addresses (t : SlotTable) : t.addresses.Nodup :=
  (List.mergeSort_perm _ _).nodup_iff.mpr (nodup_eraseDups _)

/-- Nodes that are in order already are listed as they come. -/
theorem addresses_eq_of_sorted {t : SlotTable} {nodes : List String}
    (h : t.shards.toList.flatten.eraseDups = nodes) (hs : nodes.Pairwise (· ≤ ·)) :
    t.addresses = nodes := by
  rw [addresses, h]
  exact List.mergeSort_eq_self (· ≤ ·) hs

theorem mem_addresses_ofRanges {a : String} :
    a ∈ (ofRanges ranges).addresses ↔ ∃ range ∈ ranges, a ∈ range.nodes := by
  rw [addresses, List.mem_mergeSort, List.mem_eraseDups, shards_ofRanges, List.mem_flatten]
  constructor
  · rintro ⟨nodes, hn, ha⟩
    obtain ⟨range, hr, rfl⟩ := List.mem_map.mp (List.mem_eraseDups.mp hn)
    exact ⟨range, hr, ha⟩
  · rintro ⟨range, hr, ha⟩
    exact ⟨range.nodes, List.mem_eraseDups.mpr (List.mem_map_of_mem hr), ha⟩

variable {origin : String} {r : Reply} {t : SlotTable}

theorem load_eq_ok : load origin r = .ok t ↔ ∃ ranges, IsAnswer origin r ranges ∧ ofRanges ranges = t := by
  have hread : load origin r = .ok t ↔ ofReply origin r = .ok t := by
    unfold load
    cases ofReply origin r <;> simp [Except.mapError]
  exact hread.trans ofReply_eq_ok

theorem exists_entry (h : IsAnswer origin r ranges) {range : SlotRange} (hr : range ∈ ranges) :
    ∃ entry, IsRange origin entry range := by
  obtain ⟨hs⟩ := h
  obtain ⟨-, hget⟩ := List.forall₂_iff_get.mp hs
  obtain ⟨⟨i, hi⟩, rfl⟩ := List.mem_iff_get.mp hr
  exact ⟨_, hget i (by rwa [hs.length_eq]) hi⟩

theorem ordered (h : IsAnswer origin r ranges) : ∀ range ∈ ranges, range.first ≤ range.last := by
  intro range hr
  obtain ⟨_, -, -, ho, -, -⟩ := exists_entry h hr
  exact ho

theorem served (h : IsAnswer origin r ranges) : ∀ range ∈ ranges, range.nodes ≠ [] := by
  intro range hr hn
  obtain ⟨_, -, -, -, hne, hs⟩ := exists_entry h hr
  rw [hn] at hs
  exact hne (List.forall₂_nil_right_iff.mp hs)

theorem shard_ne_nil (h : load origin r = .ok t) {slot : Nat} {shard : Shard}
    (hs : t.shard? slot = some shard) : shard ≠ [] := by
  obtain ⟨ranges, ha, rfl⟩ := load_eq_ok.mp h
  rw [shard?_ofRanges (ordered ha)] at hs
  obtain ⟨range, hl, rfl⟩ := Option.map_eq_some_iff.mp hs
  exact served ha range (List.mem_of_mem_filter (List.mem_of_getLast? hl))

/-- Reading an answer is exact. It succeeds if and only if the reply is a list of ranges; any other
reply is an unexpected one. Each slot has the nodes of the last range that covers it, and none without
such a range. The shards are the different lists of nodes, none of them empty, in the order in which
they first appear; a slot has the number of a shard, or nothing; and the addresses are those of all
ranges, each once. -/
theorem load_exact (origin : String) (r : Reply) :
    ((∃ t, load origin r = .ok t) ↔ ∃ ranges, IsAnswer origin r ranges) ∧
    ((∀ ranges, ¬ IsAnswer origin r ranges) →
      ∃ reason, load origin r = .error (.unexpectedReply reason)) ∧
    ∀ ranges, IsAnswer origin r ranges → ∃ t : SlotTable, load origin r = .ok t ∧
      (∀ slot, t.shard? slot = ((ranges.filter (·.covers slot)).getLast?).map (·.nodes)) ∧
      t.shards.toList = (ranges.map (·.nodes)).eraseDups ∧ t.shards.toList.Nodup ∧
      (∀ shard ∈ t.shards.toList, shard ≠ []) ∧
      t.owner.size = slotCount ∧
      (∀ slot id : Nat, t.owner[slot]? = some (some id) → id < t.shards.size) ∧
      (ranges.length < 2 ^ 32 → ∀ slot id : Nat, t.owner[slot]? = some (some id) → id < 2 ^ 32) ∧
      t.addresses.Nodup ∧ ∀ a, a ∈ t.addresses ↔ ∃ range ∈ ranges, a ∈ range.nodes := by
  refine ⟨?_, ?_, ?_⟩
  · simp only [load_eq_ok]
    constructor
    · rintro ⟨_, ranges, ha, -⟩
      exact ⟨ranges, ha⟩
    · rintro ⟨ranges, ha⟩
      exact ⟨_, ranges, ha, rfl⟩
  · intro hno
    cases h : ofReply origin r with
    | ok t =>
      obtain ⟨ranges, ha, -⟩ := ofReply_eq_ok.mp h
      exact absurd ha (hno ranges)
    | error fault =>
      refine ⟨fault.message, ?_⟩
      rw [load, h]
      rfl
  · intro ranges ha
    have hshards := shards_ofRanges ranges
    refine ⟨ofRanges ranges, load_eq_ok.mpr ⟨ranges, ha, rfl⟩, shard?_ofRanges (ordered ha), hshards,
      hshards ▸ nodup_eraseDups _, ?_, owner_size_ofRanges ranges,
      fun _ _ => lt_of_owner (ordered ha), ?_, nodup_addresses _, fun _ => mem_addresses_ofRanges⟩
    · intro shard hs
      rw [hshards, List.mem_eraseDups] at hs
      obtain ⟨range, hr, rfl⟩ := List.mem_map.mp hs
      exact served ha range hr
    · intro hfew slot id hid
      have hle := shards_size_ofRanges_le ranges
      exact Nat.lt_trans (Nat.lt_of_lt_of_le (lt_of_owner (ordered ha) hid) hle) hfew

end SlotTable

end Cluster

end RespClient
