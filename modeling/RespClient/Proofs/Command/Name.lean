import RespClient.Proofs.Cluster.Selection
import RespClient.Proofs.Command.Recipe
import RespClient.Proofs.Text.NameTable
import RespClient.Proofs.Text.Utf8
import RespClient.Proofs.Text.Words

namespace RespClient

open Text (IsWord isAsciiBlank isBlank trim upper words)

variable {name word : String}

theorem Arg.ofText_inj {s t : String} : Arg.ofText s = Arg.ofText t ↔ s = t := by
  rw [Arg.ofText, Arg.ofText, Arg.bytes.injEq, Text.Utf8.ofText_inj]

def BuilderCall.flag? : BuilderCall → Option Bool
  | readOnly b => some b
  | arg _ | args _ | argList _ | key _ => none

theorem BuilderCall.readOnly_apply (c : Command) (b : BuilderCall) :
    (b.apply c).readOnly = b.flag?.getD c.readOnly := by
  cases b <;> rfl

theorem readOnly_foldl_apply (c : Command) (calls : List BuilderCall) :
    (calls.foldl BuilderCall.apply c).readOnly =
      (calls.filterMap BuilderCall.flag?).getLast?.getD c.readOnly := by
  induction calls generalizing c with
  | nil => rfl
  | cons b calls ih =>
    rw [List.foldl_cons, ih, b.readOnly_apply, List.filterMap_cons]
    cases b.flag? with
    | none => rfl
    | some flag => rw [List.getLast?_cons, Option.getD_some, Option.getD_some]

/-- The last call that sets the flag decides, and without one it is that of the name. -/
theorem Recipe.readOnly_command (p : Recipe) :
    p.command.readOnly =
      (p.calls.filterMap BuilderCall.flag?).getLast?.getD (Command.ofName p.name).readOnly :=
  readOnly_foldl_apply _ _

namespace Command

theorem isReadOnlyName_iff : isReadOnlyName name = true ↔ upper name ∈ readOnlyNames.names :=
  Text.NameTable.contains_iff

theorem not_isBlank_of_mem_names {n : String} (h : n ∈ readOnlyNames.names) :
    ∀ c ∈ n.toList, ¬isBlank c := by
  have hall : readOnlyNames.names.toList.all (fun n => n.toList.all fun c => !isBlank c) = true := by
    decide +kernel
  rw [List.all_eq_true] at hall
  simpa using hall n (Array.mem_toList_iff.mpr h)

/-- A word that the table lists has no blank to trim. -/
theorem trim_of_listed (h : upper word ∈ readOnlyNames.names) : trim word = word := by
  refine Text.trim_eq_self fun c hc hb => ?_
  have hmem : c.toUpper ∈ (upper word).toList := by
    rw [upper, String.toList_map]
    exact List.mem_map_of_mem hc
  rw [Text.toUpper_of_isBlank hb] at hmem
  exact not_isBlank_of_mem_names h c hmem hb

/-- The request is one word, and the table lists it. -/
def Listed (args : List Arg) : Prop :=
  ∃ word, args = [.ofText word] ∧ upper word ∈ readOnlyNames.names

/-- The request is one word, and the table lists what is left of it when blanks are trimmed. -/
def Padded (args : List Arg) : Prop :=
  ∃ word, args = [.ofText word] ∧ trim word ≠ word ∧ upper (trim word) ∈ readOnlyNames.names

theorem args_ofName_eq_singleton : (ofName name).args = [.ofText word] ↔ words name = [word] := by
  change (words name).map Arg.ofText = _ ↔ _
  rw [List.map_eq_singleton_iff]
  simp only [Arg.ofText_inj, exists_eq_right]

theorem readOnly_ofName_iff :
    (ofName name).readOnly = true ↔
      ∃ word, words name = [word] ∧ upper (trim word) ∈ readOnlyNames.names := by
  have hflag : (ofName name).readOnly = ((words name).length == 1 && isReadOnlyName (trim name)) := rfl
  rw [hflag, Bool.and_eq_true, beq_iff_eq, List.length_eq_one_iff, isReadOnlyName_iff]
  constructor
  · rintro ⟨⟨word, hw⟩, hn⟩
    have htrim : trim name = trim word := Text.trim_of_words_eq hw
    exact ⟨word, hw, htrim ▸ hn⟩
  · rintro ⟨word, hw, hn⟩
    have htrim : trim name = trim word := Text.trim_of_words_eq hw
    exact ⟨⟨word, hw⟩, htrim ▸ hn⟩

theorem Listed.not_padded {args : List Arg} (h : Listed args) : ¬Padded args := by
  rintro ⟨word, hargs, hne, -⟩
  obtain ⟨word', hargs', hn⟩ := h
  have heq : word = word' := by
    rw [hargs, List.singleton_inj, Arg.ofText_inj] at hargs'
    exact hargs'
  exact hne (trim_of_listed (heq ▸ hn))

/-- Only blanks that separate no words are trimmed off an argument. -/
theorem Padded.exists_blank (h : Padded (ofName name).args) :
    ∃ c ∈ name.toList, isBlank c ∧ ¬isAsciiBlank c := by
  obtain ⟨word, hargs, hne, -⟩ := h
  obtain ⟨before, after, he, hw, -, -⟩ :=
    Text.words_eq_singleton.mp (args_ofName_eq_singleton.mp hargs)
  by_contra hall
  refine hne (Text.trim_eq_self fun c hc hb => hall ⟨c, ?_, hb, hw.solid c hc⟩)
  rw [he]
  exact List.mem_append_right before (List.mem_append_left after hc)

theorem readOnly_ofName :
    (ofName name).readOnly = true ↔ Listed (ofName name).args ∨ Padded (ofName name).args := by
  rw [readOnly_ofName_iff]
  simp only [Listed, Padded, args_ofName_eq_singleton]
  constructor
  · rintro ⟨word, hw, hn⟩
    by_cases ht : trim word = word
    · exact .inl ⟨word, hw, ht ▸ hn⟩
    · exact .inr ⟨word, hw, ht, hn⟩
  · rintro (⟨word, hw, hn⟩ | ⟨word, hw, -, hn⟩)
    · exact ⟨word, hw, (trim_of_listed hn).symm ▸ hn⟩
    · exact ⟨word, hw, hn⟩

/-- A replica is drawn only for a request that was marked to only read, by its first word if by nothing
else. -/
theorem word_of_selectNode {p : Recipe} {policy : ReplicaPolicy} {members choice : Nat}
    (hflags : ∀ b ∈ p.calls, b.flag? = none)
    (h : Cluster.selectNode policy p.command.readOnly members choice ≠ 0) :
    ∃ word more, p.command.args.map Arg.bytes? = some (Bytes.ofText word) :: more ∧
      upper (trim word) ∈ readOnlyNames.names := by
  have hnone : p.calls.filterMap BuilderCall.flag? = [] := List.filterMap_eq_nil_iff.mpr hflags
  have hread : p.command.readOnly = true := by
    by_contra hwrite
    exact h (Cluster.selectNode_master (fun hr => hwrite hr.1) choice)
  rw [p.readOnly_command, hnone] at hread
  obtain ⟨word, hw, hn⟩ := readOnly_ofName_iff.mp hread
  refine ⟨word, p.calls.flatMap BuilderCall.arguments, ?_, hn⟩
  rw [p.args_command, Recipe.arguments, hw]
  rfl

/-- The name decides whether a command only reads. Looking it up by halving is membership in the table.
A command is taken to only read if its request is one word that the table lists, or would list if blanks
were trimmed off it. So the flag tells the former unless there is something to trim, which takes a blank
that separates no words. Calls that set the flag override this, and without one no replica is drawn for
the command unless its first argument, trimmed, is listed. -/
theorem read_only_preset (name : String) (calls : List BuilderCall) :
    (isReadOnlyName name = true ↔ upper name ∈ readOnlyNames.names) ∧
    ((ofName name).readOnly = true ↔ Listed (ofName name).args ∨ Padded (ofName name).args) ∧
    (((ofName name).readOnly = true ↔ Listed (ofName name).args) ↔ ¬Padded (ofName name).args) ∧
    (Padded (ofName name).args → ∃ c ∈ name.toList, isBlank c ∧ ¬isAsciiBlank c) ∧
    (Recipe.command ⟨name, calls⟩).readOnly =
      (calls.filterMap BuilderCall.flag?).getLast?.getD (ofName name).readOnly ∧
    ((∀ b ∈ calls, b.flag? = none) → ∀ policy members choice,
      Cluster.selectNode policy (Recipe.command ⟨name, calls⟩).readOnly members choice ≠ 0 →
      ∃ word more,
        (Recipe.command ⟨name, calls⟩).args.map Arg.bytes? = some (Bytes.ofText word) :: more ∧
        upper (trim word) ∈ readOnlyNames.names) := by
  have hpreset : (ofName name).readOnly = true ↔
      Listed (ofName name).args ∨ Padded (ofName name).args := readOnly_ofName
  refine ⟨isReadOnlyName_iff, hpreset, ?_, Padded.exists_blank, Recipe.readOnly_command _, ?_⟩
  · rw [hpreset]
    constructor
    · intro h hp
      exact (h.mp (.inr hp)).not_padded hp
    · intro hp
      exact or_iff_left hp
  · intro hflags policy members choice h
    exact word_of_selectNode hflags h

/-- Tabs around a small name do no harm, and a replica is drawn for it. -/
theorem read_only_preset_tabs :
    ((ofName "\tget\t").readOnly = true ↔ Listed (ofName "\tget\t").args) ∧
    ∃ word more,
      (Recipe.command ⟨"\tget\t", [.key [107]]⟩).args.map Arg.bytes? =
        some (Bytes.ofText word) :: more ∧
      upper (trim word) ∈ readOnlyNames.names := by
  obtain ⟨-, -, meets, -, -, drawn⟩ := read_only_preset "\tget\t" [.key [107]]
  have hlisted : Listed (ofName "\tget\t").args := ⟨"get", by decide +kernel, by decide +kernel⟩
  have hcalls : ∀ b ∈ [BuilderCall.key [107]], b.flag? = none := List.forall_mem_singleton.mpr rfl
  have hreplica : Cluster.selectNode .always
      (Recipe.command ⟨"\tget\t", [.key [107]]⟩).readOnly 2 0 ≠ 0 := by decide +kernel
  exact ⟨meets.mpr hlisted.not_padded, drawn hcalls .always 2 0 hreplica⟩

/-- A name behind a no-break space is sent with it and is not in the table, and yet it is taken to only
read and a replica is drawn for it. -/
theorem preset_trims_more :
    (ofName "\u00a0GET").args = [.ofText "\u00a0GET"] ∧ ¬Listed (ofName "\u00a0GET").args ∧
    (ofName "\u00a0GET").readOnly = true ∧
    Cluster.selectNode .always (ofName "\u00a0GET").readOnly 2 0 = 1 := by
  have hargs : (ofName "\u00a0GET").args = [.ofText "\u00a0GET"] := by decide +kernel
  have hpadded : Padded (ofName "\u00a0GET").args :=
    ⟨"\u00a0GET", hargs, by decide +kernel, by decide +kernel⟩
  exact ⟨hargs, fun h => h.not_padded hpadded, by decide +kernel, by decide +kernel⟩

end Command

end RespClient
