import Mathlib.Data.List.TakeWhile
import RespClient.Proofs.Command.Recipe

namespace RespClient

namespace Cluster

/-- The tag of a key stands between its first opening brace and the next closing one, and is not
empty. It may hold more opening braces. -/
inductive Tagged : Bytes → Bytes → Prop
  | intro {before tag : Bytes} (after : Bytes) (first : tagOpen ∉ before) (filled : tag ≠ [])
      (next : tagClose ∉ tag) : Tagged (before ++ tagOpen :: (tag ++ tagClose :: after)) tag

/-- The ways in which a key has no tag. -/
inductive Untagged : Bytes → Prop
  | unopened {key : Bytes} (h : tagOpen ∉ key) : Untagged key
  | unclosed {before rest : Bytes} (first : tagOpen ∉ before) (h : tagClose ∉ rest) :
      Untagged (before ++ tagOpen :: rest)
  | empty {before : Bytes} (after : Bytes) (first : tagOpen ∉ before) :
      Untagged (before ++ tagOpen :: tagClose :: after)

section Braces

variable {brace : UInt8} {before : Bytes}

theorem ne_of_not_mem (h : brace ∉ before) : ∀ b ∈ before, (b != brace) = true :=
  fun _ hb => bne_iff_ne.mpr fun he => h (he ▸ hb)

theorem dropWhile_eq_nil (h : brace ∉ before) : before.dropWhile (· != brace) = [] :=
  List.dropWhile_eq_nil_iff.mpr (ne_of_not_mem h)

theorem dropWhile_brace (h : brace ∉ before) (after : Bytes) :
    (before ++ brace :: after).dropWhile (· != brace) = brace :: after := by
  rw [List.dropWhile_append_of_pos (ne_of_not_mem h), List.dropWhile_cons_of_neg (by simp)]

theorem takeWhile_brace (h : brace ∉ before) (after : Bytes) :
    (before ++ brace :: after).takeWhile (· != brace) = before := by
  rw [List.takeWhile_append_of_pos (ne_of_not_mem h), List.takeWhile_cons_of_neg (by simp),
    List.append_nil]

end Braces

variable {key tag : Bytes}

theorem Tagged.hashTag?_eq (h : Tagged key tag) : hashTag? key = some tag := by
  obtain ⟨after, first, filled, next⟩ := h
  simp only [hashTag?, dropWhile_brace first, dropWhile_brace next, takeWhile_brace next]

theorem Untagged.hashTag?_eq (h : Untagged key) : hashTag? key = none := by
  cases h with
  | unopened h => simp only [hashTag?, dropWhile_eq_nil h]
  | unclosed first h => simp only [hashTag?, dropWhile_brace first, dropWhile_eq_nil h]
  | empty after first =>
    have hnone : tagClose ∉ ([] : Bytes) := List.not_mem_nil
    have hdrop := dropWhile_brace hnone after
    have htake := takeWhile_brace hnone after
    rw [List.nil_append] at hdrop htake
    simp only [hashTag?, dropWhile_brace first, hdrop, htake]

/-- Every key has a tag or lacks it in one of these ways. -/
theorem tagged_or_untagged (key : Bytes) : (∃ tag, Tagged key tag) ∨ Untagged key := by
  by_cases hopen : tagOpen ∈ key
  · obtain ⟨before, rest, rfl, first⟩ := List.eq_append_cons_of_mem hopen
    by_cases hclose : tagClose ∈ rest
    · obtain ⟨tag, after, rfl, next⟩ := List.eq_append_cons_of_mem hclose
      by_cases htag : tag = []
      · subst htag
        exact .inr (.empty after first)
      · exact .inl ⟨tag, .intro after first htag next⟩
    · exact .inr (.unclosed first hclose)
  · exact .inr (.unopened hopen)

theorem hashTag?_eq_some : hashTag? key = some tag ↔ Tagged key tag := by
  refine ⟨fun h => ?_, Tagged.hashTag?_eq⟩
  rcases tagged_or_untagged key with ⟨tag', ht⟩ | hu
  · cases h.symm.trans ht.hashTag?_eq
    exact ht
  · cases h.symm.trans hu.hashTag?_eq

theorem hashTag?_eq_none : hashTag? key = none ↔ Untagged key := by
  refine ⟨fun h => ?_, Untagged.hashTag?_eq⟩
  rcases tagged_or_untagged key with ⟨tag, ht⟩ | hu
  · cases h.symm.trans ht.hashTag?_eq
  · exact hu

theorem not_tagged_iff : (∀ tag, ¬ Tagged key tag) ↔ Untagged key := by
  simp only [← hashTag?_eq_some, ← hashTag?_eq_none, Option.eq_none_iff_forall_ne_some]

theorem val_hashSlot (key : Bytes) :
    (hashSlot key).val = (crc16 ((hashTag? key).getD key)).toNat % slotCount := rfl

theorem Untagged.hashSlot_eq (h : Untagged key) :
    (hashSlot key).val = (crc16 key).toNat % slotCount := by
  rw [val_hashSlot, h.hashTag?_eq, Option.getD_none]

/-- A tag is a key without a tag: no brace closes in it. -/
theorem Tagged.untagged (h : Tagged key tag) : Untagged tag := by
  obtain ⟨after, -, -, next⟩ := h
  by_cases hopen : tagOpen ∈ tag
  · obtain ⟨before, rest, rfl, first⟩ := List.eq_append_cons_of_mem hopen
    exact .unclosed first fun hc => next (List.mem_append_right _ (List.mem_cons_of_mem _ hc))
  · exact .unopened hopen

theorem Tagged.hashSlot_eq (h : Tagged key tag) : hashSlot key = hashSlot tag := by
  apply Fin.ext
  rw [h.untagged.hashSlot_eq, val_hashSlot, h.hashTag?_eq, Option.getD_some]

end Cluster

def BuilderCall.key? : BuilderCall → Option Bytes
  | key k => some k
  | arg _ | args _ | argList _ | readOnly _ => none

open Cluster (hashSlot)

/-- A call gives a command the slot of its key, unless it has one. -/
theorem BuilderCall.slot_apply (c : Command) (b : BuilderCall) :
    (b.apply c).slot = c.slot.or (b.key?.map hashSlot) := by
  cases b with
  | key k => exact Option.orElse_eq_or
  | arg | args | argList | readOnly => exact Option.or_none.symm

theorem slot_foldl_apply (c : Command) (calls : List BuilderCall) :
    (calls.foldl BuilderCall.apply c).slot =
      c.slot.or ((calls.findSome? BuilderCall.key?).map hashSlot) := by
  induction calls generalizing c with
  | nil => exact Option.or_none.symm
  | cons b calls ih =>
    rw [List.foldl_cons, ih, b.slot_apply, List.findSome?_cons]
    cases c.slot <;> cases b.key? <;> rfl

theorem Recipe.slot_command (p : Recipe) :
    p.command.slot = (p.calls.findSome? BuilderCall.key?).map hashSlot := by
  rw [command, slot_foldl_apply]
  rfl

namespace Cluster

/-- The tag decides the slot: a key with a tag has the slot of its tag, and a key without one, such as a
tag, is hashed whole. A command has the slot of the first key that it was given, whatever comes before
and after that, and none without a key. -/
theorem slot_from_tag :
    (∀ key tag, Tagged key tag →
      hashSlot key = hashSlot tag ∧ (hashSlot tag).val = (crc16 tag).toNat % slotCount) ∧
    (∀ key, (∀ tag, ¬ Tagged key tag) → (hashSlot key).val = (crc16 key).toNat % slotCount) ∧
    (∀ key, (∀ tag, ¬ Tagged key tag) ↔ Untagged key) ∧
    (∀ key, (hashSlot key).val < 16384) ∧
    (∀ name calls k more, (∀ b ∈ calls, b.key? = none) →
      (Recipe.command ⟨name, calls ++ .key k :: more⟩).slot = some (hashSlot k)) ∧
    (∀ name calls, (∀ b ∈ calls, b.key? = none) → (Recipe.command ⟨name, calls⟩).slot = none) := by
  refine ⟨fun key tag h => ⟨h.hashSlot_eq, h.untagged.hashSlot_eq⟩,
    fun key h => (not_tagged_iff.mp h).hashSlot_eq, fun key => not_tagged_iff,
    fun key => (hashSlot key).isLt, fun name calls k more h => ?_, fun name calls h => ?_⟩
  · have hnone : calls.findSome? BuilderCall.key? = none := List.findSome?_eq_none_iff.mpr h
    rw [Recipe.slot_command, List.findSome?_append, hnone]
    rfl
  · rw [Recipe.slot_command, List.findSome?_eq_none_iff.mpr h]
    rfl

/-- Of the tags in `}a{{b}{c}` the first one counts, and a later key changes nothing. -/
theorem slot_from_tag_first :
    hashSlot [125, 97, 123, 123, 98, 125, 123, 99, 125] = hashSlot [123, 98] ∧
      (Recipe.command ⟨"MGET", [.readOnly true, .key [102, 111, 111], .key []]⟩).slot =
        some 12182 := by
  obtain ⟨tagged, -, -, -, keyed, -⟩ := slot_from_tag
  have hbefore : tagOpen ∉ [125, 97] := by decide
  have hnext : tagClose ∉ [123, 98] := by decide
  have htag : Tagged [125, 97, 123, 123, 98, 125, 123, 99, 125] [123, 98] :=
    .intro [123, 99, 125] hbefore (by decide) hnext
  have hfoo : hashSlot [102, 111, 111] = 12182 := by decide +kernel
  refine ⟨(tagged _ _ htag).1, ?_⟩
  rw [← hfoo]
  exact keyed "MGET" [.readOnly true] _ [.key []] (by simp [BuilderCall.key?])

end Cluster

end RespClient
