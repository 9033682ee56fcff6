import RespClient.Proofs.Cluster.SlotTable
import RespClient.Sentinel.Answer

namespace RespClient.Sentinel

/-- The bytes that ask a sentinel for the address of a role. -/
def questionFrame (master : String) : Role → Bytes
  | .sentinel => Bytes.ofText "*1\r\n$4\r\nPING\r\n"
  | .master => Bytes.ofText "*3\r\n$8\r\nSENTINEL\r\n$23\r\nget-master-addr-by-name\r\n" ++
      Command.bulkFrame (Bytes.ofText master)
  | .replica => Bytes.ofText "*3\r\n$8\r\nSENTINEL\r\n$6\r\nslaves\r\n" ++
      Command.bulkFrame (Bytes.ofText master)

/-- The bytes that ask for announcements of a new master. -/
def subscriptionFrame : Bytes := Bytes.ofText "*2\r\n$9\r\nSUBSCRIBE\r\n$14\r\n+switch-master\r\n"

theorem encode_ofName_arg {name : String} {first second : Bytes} (master : String) (nulls : NullFraming)
    (h : (Command.ofName name).args = [.bytes first, .bytes second]) :
    ((Command.ofName name).arg (Arg.ofText master)).encode nulls =
      Bytes.ofText "*3\r\n" ++ Command.bulkFrame first ++ Command.bulkFrame second ++
        Command.bulkFrame (Bytes.ofText master) := by
  have hcount : '*'.toUInt8 :: Bytes.ofNat 3 ++ Bytes.crlf = Bytes.ofText "*3\r\n" := rfl
  simp [Command.encode, Command.arg, h, Command.argFrame, Arg.ofText, ← hcount]

theorem question_encode (role : Role) (master : String) (nulls : NullFraming) :
    (question role master).encode nulls = questionFrame master role := by
  cases role with
  | sentinel =>
    have hping : (Command.ofName "PING").encode .emptyBulk = Bytes.ofText "*1\r\n$4\r\nPING\r\n" := rfl
    cases nulls <;> exact hping
  | master =>
    have hargs : (Command.ofName "SENTINEL get-master-addr-by-name").args =
      [.bytes (Bytes.ofText "SENTINEL"), .bytes (Bytes.ofText "get-master-addr-by-name")] := rfl
    have hwords : Bytes.ofText "*3\r\n" ++ Command.bulkFrame (Bytes.ofText "SENTINEL") ++
        Command.bulkFrame (Bytes.ofText "get-master-addr-by-name") =
      Bytes.ofText "*3\r\n$8\r\nSENTINEL\r\n$23\r\nget-master-addr-by-name\r\n" := rfl
    rw [question, encode_ofName_arg master nulls hargs, hwords, questionFrame]
  | replica =>
    have hargs : (Command.ofName "SENTINEL slaves").args =
      [.bytes (Bytes.ofText "SENTINEL"), .bytes (Bytes.ofText "slaves")] := rfl
    have hwords : Bytes.ofText "*3\r\n" ++ Command.bulkFrame (Bytes.ofText "SENTINEL") ++
        Command.bulkFrame (Bytes.ofText "slaves") =
      Bytes.ofText "*3\r\n$8\r\nSENTINEL\r\n$6\r\nslaves\r\n" := rfl
    rw [question, encode_ofName_arg master nulls hargs, hwords, questionFrame]

theorem subscription_encode (nulls : NullFraming) : subscription.encode nulls = subscriptionFrame := by
  cases nulls <;> rfl

/-- A question and the subscription differ in how many words they announce. -/
theorem question_ne_subscription (role : Role) (master : String) :
    questionFrame master role ≠ subscriptionFrame := by
  have hsub : subscriptionFrame[1]? = some 50 := rfl
  have hask : (questionFrame master role)[1]? = some 49 ∨ (questionFrame master role)[1]? = some 51 := by
    cases role with
    | sentinel => exact .inl rfl
    | master => exact .inr (List.getElem?_append_left (by decide +kernel))
    | replica => exact .inr (List.getElem?_append_left (by decide +kernel))
  intro h
  rw [h, hsub] at hask
  revert hask
  decide

/-- The pair at place `n` of a flat list of names and values. -/
structure Pair (name : String) (fields : List Reply) (n : Nat) (value : Reply) : Prop where
  key : ∃ key, fields[2 * n]? = some key ∧ key.IsText name
  value : fields[2 * n + 1]? = some value

/-- The value of a field in a flat list of names and values: the last one, where the name stands there more
than once. -/
def Field (name : String) (fields : List Reply) (value : Reply) : Prop :=
  ∃ n, Pair name fields n value ∧ ∀ m other, Pair name fields m other → m ≤ n

/-- A host that is not empty and a port make up an address. -/
inductive Located : Reply → Reply → String → Prop
  | mk {host port : Reply} {name : String} {n : Int} (hh : host.IsText name) (hne : name ≠ "")
      (hp : port.IsNumber n) (hl : 0 ≤ n) (hu : n ≤ 65535) :
      Located host port (Address.join name n.toNat)

/-- The address that a reply names for a role. A sentinel names itself by any reply, a master is named by
its host and port, and of the replicas that are listed the one counts that the choice falls on. -/
inductive Names (endpoint : String) (choice : Nat) : Role → Reply → String → Prop
  | sentinel (reply : Reply) : Names endpoint choice .sentinel reply endpoint
  | master {host port : Reply} {rest : List Reply} {address : String} (h : Located host port address) :
      Names endpoint choice .master (.multi (some (host :: port :: rest))) address
  | replica {entries fields : List Reply} {host port : Reply} {address : String}
      (he : entries[choice % entries.length]? = some (.multi (some fields)))
      (hh : Field "ip" fields host) (hp : Field "port" fields port) (h : Located host port address) :
      Names endpoint choice .replica (.multi (some entries)) address

/-- What comes of the outcome of a question. -/
inductive Verdict (endpoint : String) (choice : Nat) (role : Role) :
    Except ClientError Reply → Except ClientError String → Prop
  | failed (e : ClientError) : Verdict endpoint choice role (.error e) (.error e)
  | named {reply : Reply} {address : String} (h : Names endpoint choice role reply address) :
      Verdict endpoint choice role (.ok reply) (.ok address)
  | unnamed {reply : Reply} (text : String) (h : ∀ address, ¬ Names endpoint choice role reply address) :
      Verdict endpoint choice role (.ok reply) (.error (.unexpectedReply text))

section Reading

variable {name endpoint master address : String} {choice : Nat} {role : Role}
  {host port value k v r : Reply} {fields : List Reply}

theorem addressOf_eq_ok : addressOf host port = .ok address ↔ Located host port address := by
  constructor
  · intro h
    unfold addressOf at h
    split at h
    · cases h
    next name hname =>
      split at h
      · cases h
      next n hn =>
        cases h
        obtain ⟨ht, hne⟩ := Option.filter_eq_some_iff.mp hname
        obtain ⟨hp, hb⟩ := Option.filter_eq_some_iff.mp hn
        simp only [Bool.not_eq_true', String.isEmpty_eq_false_iff] at hne
        obtain ⟨hl, hu⟩ := of_decide_eq_true hb
        exact .mk (Reply.text?_eq_some.mp ht) hne (Reply.number?_eq_some.mp hp) hl hu
  · rintro ⟨hh, hne, hp, hl, hu⟩
    simp [addressOf, Reply.text?_eq_some.mpr hh, Reply.number?_eq_some.mpr hp, Option.filter, hne, hl, hu]

theorem masterAddress_eq_ok : masterAddress master r = .ok address ↔
    ∃ host port rest, r = .multi (some (host :: port :: rest)) ∧ Located host port address := by
  constructor
  · intro h
    unfold masterAddress at h
    split at h
    · cases h
    next host port rest hr =>
      exact ⟨host, port, rest, Reply.items?_eq_some.mp hr, addressOf_eq_ok.mp h⟩
    · cases h
  · rintro ⟨host, port, rest, rfl, h⟩
    exact addressOf_eq_ok.mpr h

theorem pair_zero : Pair name (k :: v :: fields) 0 value ↔ k.IsText name ∧ v = value := by
  constructor
  · rintro ⟨⟨key, hk, ht⟩, hv⟩
    cases hk
    cases hv
    exact ⟨ht, rfl⟩
  · rintro ⟨ht, rfl⟩
    exact ⟨⟨k, rfl, ht⟩, rfl⟩

theorem pair_succ (n : Nat) : Pair name (k :: v :: fields) (n + 1) value ↔ Pair name fields n value :=
  ⟨fun h => ⟨h.key, h.value⟩, fun h => ⟨h.key, h.value⟩⟩

theorem Field.cons (h : Field name fields value) : Field name (k :: v :: fields) value := by
  obtain ⟨n, hp, hlast⟩ := h
  refine ⟨n + 1, (pair_succ n).mpr hp, fun m other hm => ?_⟩
  cases m with
  | zero => exact Nat.zero_le _
  | succ m => exact Nat.succ_le_succ (hlast m other ((pair_succ m).mp hm))

theorem fieldValue?_spec (name : String) (fields : List Reply) :
    (∃ value, fieldValue? name fields = some value ∧ Field name fields value) ∨
      fieldValue? name fields = none ∧ ∀ n value, ¬ Pair name fields n value := by
  induction fields using fieldValue?.induct with
  | case1 k v rest ih =>
    rcases ih with ⟨value, hv, hf⟩ | ⟨hnone, hno⟩
    · exact .inl ⟨value, by simp [fieldValue?, hv], hf.cons⟩
    · have hrest : ∀ n value, ¬ Pair name (k :: v :: rest) (n + 1) value :=
        fun n value hp => hno n value ((pair_succ n).mp hp)
      by_cases hk : k.text? = some name
      · refine .inl ⟨v, by simp [fieldValue?, hnone, hk], 0, ?_, fun m other hm => ?_⟩
        · exact pair_zero.mpr ⟨Reply.text?_eq_some.mp hk, rfl⟩
        · cases m with
          | zero => exact Nat.le_refl 0
          | succ m => exact absurd hm (hrest m other)
      · refine .inr ⟨by simp [fieldValue?, hnone, hk], fun n value hp => ?_⟩
        cases n with
        | zero => exact hk (Reply.text?_eq_some.mpr (pair_zero.mp hp).1)
        | succ n => exact hrest n value hp
  | case2 fields hshort =>
    refine .inr ⟨?_, fun n value hp => ?_⟩
    · unfold fieldValue?
      split
      next k v rest => exact absurd rfl (hshort k v rest)
      · rfl
    · -- A list of one element holds no value.
      have hlen := (List.getElem?_eq_some_iff.mp hp.value).1
      rcases fields with _ | ⟨k, _ | ⟨v, rest⟩⟩
      · simp at hlen
      · simp at hlen
      · exact hshort k v rest rfl

theorem Field.unique {value' : Reply} (h : Field name fields value) (h' : Field name fields value') :
    value = value' := by
  obtain ⟨n, hp, hlast⟩ := h
  obtain ⟨m, hp', hlast'⟩ := h'
  obtain rfl := Nat.le_antisymm (hlast' n value hp) (hlast m value' hp')
  exact Option.some.inj (hp.value.symm.trans hp'.value)

theorem fieldValue?_eq_some : fieldValue? name fields = some value ↔ Field name fields value := by
  rcases fieldValue?_spec name fields with ⟨value', hv, hf⟩ | ⟨hnone, hno⟩
  · rw [hv, Option.some.injEq]
    exact ⟨fun h => h ▸ hf, fun h => hf.unique h⟩
  · rw [hnone]
    exact ⟨nofun, fun ⟨n, hp, _⟩ => absurd hp (hno n value)⟩

theorem replicaAddress_eq_ok : replicaAddress r = .ok address ↔
    ∃ fields host port, r = .multi (some fields) ∧ Field "ip" fields host ∧ Field "port" fields port ∧
      Located host port address := by
  constructor
  · intro h
    unfold replicaAddress at h
    split at h
    · cases h
    next fields hr =>
      split at h
      next host port hh hp =>
        exact ⟨fields, host, port, Reply.items?_eq_some.mp hr, fieldValue?_eq_some.mp hh,
          fieldValue?_eq_some.mp hp, addressOf_eq_ok.mp h⟩
      · cases h
  · rintro ⟨fields, host, port, rfl, hh, hp, h⟩
    simp only [replicaAddress, Reply.items?, fieldValue?_eq_some.mpr hh, fieldValue?_eq_some.mpr hp]
    exact addressOf_eq_ok.mpr h

/-- A reply is read as an address if and only if it names that one. -/
theorem readAnswer_eq_ok : readAnswer role endpoint master choice r = .ok address ↔
    Names endpoint choice role r address := by
  cases role with
  | sentinel =>
    constructor
    · intro h
      cases h
      exact .sentinel r
    · intro h
      cases h
      rfl
  | master =>
    refine masterAddress_eq_ok.trans ⟨?_, ?_⟩
    · rintro ⟨host, port, rest, rfl, h⟩
      exact .master h
    · intro h
      cases h with
      | master h => exact ⟨_, _, _, rfl, h⟩
  | replica =>
    have hchosen : ∀ (first : Reply) rest, (first :: rest)[choice % (first :: rest).length]? =
        some ((first :: rest).getD (choice % (rest.length + 1)) first) := by
      intro first rest
      have hlt : choice % (rest.length + 1) < (first :: rest).length := Nat.mod_lt _ (Nat.succ_pos _)
      rw [List.length_cons, List.getD_eq_getElem?_getD, List.getElem?_eq_getElem hlt, Option.getD_some]
    constructor
    · intro h
      unfold readAnswer at h
      simp only at h
      split at h
      next first rest hr =>
        obtain ⟨fields, host, port, he, hh, hp, ha⟩ := replicaAddress_eq_ok.mp h
        rw [Reply.items?_eq_some.mp hr]
        exact .replica ((hchosen first rest).trans (congrArg some he)) hh hp ha
      · cases h
    · intro h
      cases h with
      | @replica entries fields host port address he hh hp ha =>
        cases entries with
        | nil => cases he
        | cons first rest =>
          have hf := Option.some.inj ((hchosen first rest).symm.trans he)
          exact replicaAddress_eq_ok.mpr ⟨fields, host, port, hf, hh, hp, ha⟩

end Reading

end RespClient.Sentinel
