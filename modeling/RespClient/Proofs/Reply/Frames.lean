import RespClient.Proofs.Reply.Offsets

namespace RespClient.Reply

/-- A moment of a call: the open lists, a finished value that is to be placed, and what is left of the
buffer. -/
structure Moment where
  stack : List Frame
  hand? : Option Reply := none
  buf : Bytes

/-- How a call goes on. -/
inductive Course where
  | goes (m : Moment)
  | ends (v : Verdict) (stack : List Frame) (rest : Bytes)

/-- A list that is open is not finished, and counts what came and what is missing. -/
structure Frame.Counts (f : Frame) : Prop where
  missing : 1 ≤ f.missing
  size : f.items.length + f.missing = f.size

namespace Moment

/-- The step of a moment. There is none where an offset does not fit, or where the number of missing elements
would go below zero. -/
def next? (limits : Limits) (m : Moment) : Option Course :=
  match m.hand?, m.stack with
  | none, stack => do
    match ← front? limits stack.length m.buf with
    | .incomplete => some (.ends .more stack m.buf)
    | .malformed e rest => some (.ends (.malformed e) [] rest)
    | .opens n rest => some (.goes ⟨⟨n, n, []⟩ :: stack, none, rest⟩)
    | .value r rest => some (.goes ⟨stack, some r, rest⟩)
  | some r, [] => some (.ends (.reply r) [] m.buf)
  | some r, f :: fs => do
    let missing ← sub? f.missing 1
    if 0 < missing then
      some (.goes ⟨{ f with missing := missing, items := r :: f.items } :: fs, none, m.buf⟩)
    else some (.goes ⟨fs, some (.multi (some (r :: f.items).reverse)), m.buf⟩)

structure Consistent (limits : Limits) (m : Moment) : Prop where
  counts : ∀ f ∈ m.stack, f.Counts
  depth : m.stack.length ≤ limits.depth

/-- What a step can do. -/
inductive Advances (limits : Limits) : Moment → Moment → Prop where
  | opens {stack : List Frame} {field rest : Bytes} {n : Nat} (count : Numeral field n)
      (positive : 0 < n) (level : stack.length < limits.depth) :
      Advances limits ⟨stack, none, '*'.toUInt8 :: field ++ Bytes.crlf ++ rest⟩
        ⟨⟨n, n, []⟩ :: stack, none, rest⟩
  | takes {stack : List Frame} {r : Reply} {w rest : Bytes} (filled : w ≠ [])
      (wire : Wire limits.bulk (limits.depth - stack.length) r w) :
      Advances limits ⟨stack, none, w ++ rest⟩ ⟨stack, some r, rest⟩
  | adds {f : Frame} {fs : List Frame} {r : Reply} {buf : Bytes} (more : 1 < f.missing) :
      Advances limits ⟨f :: fs, some r, buf⟩
        ⟨{ f with missing := f.missing - 1, items := r :: f.items } :: fs, none, buf⟩
  | closes {f : Frame} {fs : List Frame} {r : Reply} {buf : Bytes} (last : f.missing = 1) :
      Advances limits ⟨f :: fs, some r, buf⟩
        ⟨fs, some (.multi (some (r :: f.items).reverse)), buf⟩

/-- How many elements the list has to have that the step completes: what was noted when it was opened, or
what the header says that is taken off. -/
inductive Declares : Moment → Nat → Prop where
  | noted {f : Frame} {fs : List Frame} {r : Reply} {buf : Bytes} :
      Declares ⟨f :: fs, some r, buf⟩ f.size
  | header {stack : List Frame} {field rest : Bytes} {n : Nat} (count : Numeral field n) :
      Declares ⟨stack, none, '*'.toUInt8 :: field ++ Bytes.crlf ++ rest⟩ n

variable {limits : Limits} {m m' : Moment}

/-- The moments that a call gets to. -/
abbrev Leads (limits : Limits) : Moment → Moment → Prop :=
  Relation.ReflTransGen fun m m' => m.next? limits = some (.goes m')

theorem Wire.ne_nil {bulk depth : Nat} {r : Reply} {w : Bytes} (h : Wire bulk depth r w) : w ≠ [] := by
  cases h <;> simp

theorem next?_front {stack : List Frame} {buf : Bytes} (hlen : buf.length < 2 ^ 62) :
    next? limits ⟨stack, none, buf⟩ =
      match front limits stack.length buf with
      | .incomplete => some (.ends .more stack buf)
      | .malformed e rest => some (.ends (.malformed e) [] rest)
      | .opens n rest => some (.goes ⟨⟨n, n, []⟩ :: stack, none, rest⟩)
      | .value r rest => some (.goes ⟨stack, some r, rest⟩) := by
  simp only [next?, front?_eq limits stack.length hlen, Option.bind_eq_bind, Option.bind_some]

theorem next?_place {f : Frame} {fs : List Frame} {r : Reply} {buf : Bytes} (h : 1 ≤ f.missing) :
    next? limits ⟨f :: fs, some r, buf⟩ =
      if 1 < f.missing then
        some (.goes ⟨{ f with missing := f.missing - 1, items := r :: f.items } :: fs, none, buf⟩)
      else some (.goes ⟨fs, some (.multi (some (r :: f.items).reverse)), buf⟩) := by
  have hiff : 0 < f.missing - 1 ↔ 1 < f.missing := by omega
  simp only [next?, sub?_eq h, Option.bind_eq_bind, Option.bind_some, hiff]

theorem advances (hc : m.Consistent limits) (hlen : m.buf.length < 2 ^ 62)
    (h : m.next? limits = some (.goes m')) : m.Advances limits m' := by
  obtain ⟨stack, hand?, buf⟩ := m
  cases hand? with
  | none =>
    rw [next?_front hlen] at h
    cases hf : front limits stack.length buf with
    | incomplete | malformed =>
      rw [hf] at h
      cases h
    | opens n rest =>
      rw [hf] at h
      cases h
      obtain ⟨field, rfl, count, positive, level⟩ := header_of_front hf
      exact .opens count positive level
    | value r rest =>
      rw [hf] at h
      cases h
      obtain ⟨w, rfl, wire⟩ := wire_of_front hf
      exact .takes (Wire.ne_nil wire) wire
  | some r =>
    cases stack with
    | nil => cases h
    | cons f fs =>
      have hpos := (hc.counts f (List.mem_cons_self ..)).missing
      rw [next?_place hpos] at h
      split at h <;> cases h
      · exact .adds ‹_›
      · exact .closes (by omega)

theorem exists_next (hc : m.Consistent limits) (hlen : m.buf.length < 2 ^ 62) :
    ∃ x, m.next? limits = some x := by
  obtain ⟨stack, hand?, buf⟩ := m
  cases hand? with
  | none =>
    rw [next?_front hlen]
    cases front limits stack.length buf <;> exact ⟨_, rfl⟩
  | some r =>
    cases stack with
    | nil => exact ⟨_, rfl⟩
    | cons f fs =>
      rw [next?_place (hc.counts f (List.mem_cons_self ..)).missing]
      split <;> exact ⟨_, rfl⟩

namespace Advances

theorem consistent (h : m.Advances limits m') (hc : m.Consistent limits) : m'.Consistent limits := by
  cases h with
  | opens count positive level =>
    refine ⟨?_, level⟩
    intro f hf
    rcases List.mem_cons.mp hf with rfl | hf
    · exact ⟨positive, Nat.zero_add _⟩
    · exact hc.counts f hf
  | takes => exact ⟨hc.counts, hc.depth⟩
  | @adds f fs r buf more =>
    refine ⟨?_, hc.depth⟩
    intro g hg
    rcases List.mem_cons.mp hg with rfl | hg
    · have hsize := (hc.counts f (List.mem_cons_self ..)).size
      refine ⟨by simp only; omega, ?_⟩
      simp only [List.length_cons]
      omega
    · exact hc.counts g (List.mem_cons_of_mem _ hg)
  | closes =>
    exact ⟨fun g hg => hc.counts g (List.mem_cons_of_mem _ hg), Nat.le_of_succ_le hc.depth⟩

theorem length_le (h : m.Advances limits m') : m'.buf.length ≤ m.buf.length := by
  cases h with
  | opens =>
    simp only [List.cons_append, List.length_cons, List.length_append]
    omega
  | takes => simp
  | adds | closes => exact Nat.le_refl _

theorem length_lt (h : m.Advances limits m') (hm : m.hand? = none) : m'.buf.length < m.buf.length := by
  cases h with
  | opens =>
    simp only [List.cons_append, List.length_cons, List.length_append]
    omega
  | takes filled =>
    have hpos := List.length_pos_iff.mpr filled
    simp only [List.length_append]
    omega
  | adds | closes => cases hm

/-- A list that comes into hand is as long as it was declared. -/
theorem declared (h : m.Advances limits m') (hc : m.Consistent limits) {items : List Reply}
    (hm : m'.hand? = some (.multi (some items))) : m.Declares items.length := by
  cases h with
  | @takes stack _ _ _ _ wire =>
    obtain rfl := Option.some.inj hm
    generalize limits.depth - stack.length = depth at wire
    cases wire with
    | multi count _ =>
      rw [List.append_assoc]
      exact .header count
  | @closes f fs r buf last =>
    obtain rfl : (r :: f.items).reverse = items := by simpa using hm
    have hsize := (hc.counts f (List.mem_cons_self ..)).size
    have hlength : (r :: f.items).reverse.length = f.size := by
      rw [List.length_reverse, List.length_cons]
      omega
    rw [hlength]
    exact .noted
  | opens | adds => cases hm

end Advances

/-- The lists that a call leaves open are those of its last moment, or none. -/
theorem Consistent.ends {v : Verdict} {stack : List Frame} {rest : Bytes} (hc : m.Consistent limits)
    (hlen : m.buf.length < 2 ^ 62) (h : m.next? limits = some (.ends v stack rest)) :
    Consistent limits ⟨stack, none, rest⟩ := by
  have hempty : Consistent limits ⟨[], none, rest⟩ := ⟨nofun, Nat.zero_le _⟩
  obtain ⟨stack', hand?, buf⟩ := m
  cases hand? with
  | none =>
    rw [next?_front hlen] at h
    cases hf : front limits stack'.length buf with
    | incomplete =>
      rw [hf] at h
      cases h
      exact ⟨hc.counts, hc.depth⟩
    | malformed e rest =>
      rw [hf] at h
      cases h
      exact hempty
    | opens | value =>
      rw [hf] at h
      cases h
  | some r =>
    cases stack' with
    | nil =>
      cases h
      exact hempty
    | cons f fs =>
      rw [next?_place (hc.counts f (List.mem_cons_self ..)).missing] at h
      split at h <;> cases h

theorem Leads.consistent (h : Leads limits m m') (hc : m.Consistent limits)
    (hlen : m.buf.length < 2 ^ 62) : m'.Consistent limits ∧ m'.buf.length < 2 ^ 62 := by
  induction h with
  | refl => exact ⟨hc, hlen⟩
  | tail _ hnext ih =>
    have hstep := advances ih.1 ih.2 hnext
    exact ⟨hstep.consistent ih.1, Nat.lt_of_le_of_lt hstep.length_le ih.2⟩

theorem Leads.length_le (h : Leads limits m m') (hc : m.Consistent limits)
    (hlen : m.buf.length < 2 ^ 62) : m'.buf.length ≤ m.buf.length := by
  induction h with
  | refl => exact Nat.le_refl _
  | tail hleads hnext ih =>
    obtain ⟨hc', hlen'⟩ := Leads.consistent hleads hc hlen
    exact Nat.le_trans (advances hc' hlen' hnext).length_le ih

/-- Placing a value closes the lists that it completes, one after the other. -/
theorem leads_place (limits : Limits) {stack stack' : List Frame} {r : Reply}
    {whole? : Option Reply} (buf : Bytes) (hs : ∀ f ∈ stack, 1 ≤ f.missing)
    (h : place r stack = (stack', whole?)) :
    Leads limits ⟨stack, some r, buf⟩ ⟨stack', whole?, buf⟩ ∧ (whole?.isSome → stack' = []) := by
  induction stack generalizing r with
  | nil =>
    cases h
    exact ⟨.refl, fun _ => rfl⟩
  | cons f fs ih =>
    have hnext : next? limits ⟨f :: fs, some r, buf⟩ = _ :=
      next?_place (hs f (List.mem_cons_self ..))
    rw [place] at h
    split at h
    · next hlast =>
      rw [if_neg (by omega)] at hnext
      obtain ⟨hleads, hnil⟩ := ih (fun g hg => hs g (List.mem_cons_of_mem _ hg)) h
      exact ⟨.head hnext hleads, hnil⟩
    · next hmore =>
      rw [if_pos (by omega)] at hnext
      cases h
      refine ⟨.single hnext, ?_⟩
      intro hwhole
      cases hwhole

end Moment

open Moment (Leads)

namespace Decoder

def start (d : Decoder) (buf : Bytes) : Moment := ⟨d.stack, none, buf⟩

theorem decode_limits (d : Decoder) (buf : Bytes) : (d.decode buf).2.1.limits = d.limits := by
  fun_induction Decoder.decode d buf with
  | case1 | case2 | case4 => rfl
  | case3 _ _ _ _ _ ih | case5 _ _ _ _ _ _ _ ih => exact ih

/-- A call gets to its verdict. -/
theorem leads_decode {d : Decoder} {buf : Bytes} (hc : (d.start buf).Consistent d.limits)
    (hlen : buf.length < 2 ^ 62) :
    ∃ m, Leads d.limits (d.start buf) m ∧ m.next? d.limits =
      some (.ends (d.decode buf).1 (d.decode buf).2.1.stack (d.decode buf).2.2) := by
  have hfirst : (d.start buf).next? d.limits = _ := Moment.next?_front hlen
  fun_induction Decoder.decode d buf with
  | case1 d buf hf =>
    rw [hf] at hfirst
    exact ⟨_, .refl, hfirst⟩
  | case2 d buf e rest hf =>
    rw [hf] at hfirst
    exact ⟨_, .refl, hfirst⟩
  | case3 d buf n rest hf ih =>
    rw [hf] at hfirst
    have hsingle : Leads d.limits (d.start buf) ⟨⟨n, n, []⟩ :: d.stack, none, rest⟩ := .single hfirst
    obtain ⟨hc', hlen'⟩ := hsingle.consistent hc hlen
    obtain ⟨m, hleads, hend⟩ := ih hc' hlen' (Moment.next?_front hlen')
    exact ⟨m, hsingle.trans hleads, hend⟩
  | case4 d buf r rest hf stack whole hp =>
    rw [hf] at hfirst
    obtain ⟨hleads, hnil⟩ := Moment.leads_place d.limits rest
      (fun f hf => (hc.counts f hf).missing) hp
    obtain rfl := hnil rfl
    exact ⟨_, .head hfirst hleads, rfl⟩
  | case5 d buf r rest hf stack hp ih =>
    rw [hf] at hfirst
    obtain ⟨hplace, -⟩ := Moment.leads_place d.limits rest
      (fun f hf => (hc.counts f hf).missing) hp
    have hpass : Leads d.limits (d.start buf) ⟨stack, none, rest⟩ := .head hfirst hplace
    obtain ⟨hc', hlen'⟩ := hpass.consistent hc hlen
    obtain ⟨m, hleads, hend⟩ := ih hc' hlen' (Moment.next?_front hlen')
    exact ⟨m, hpass.trans hleads, hend⟩

theorem eq_fresh_of_malformed {d d' : Decoder} {buf rest : Bytes} {e : Malformed}
    (h : d.decode buf = (.malformed e, d', rest)) : d' = ⟨d.limits, []⟩ := by
  fun_induction Decoder.decode d buf with
  | case1 | case4 => cases h
  | case2 => cases h; rfl
  | case3 _ _ _ _ _ ih | case5 _ _ _ _ _ _ _ ih => exact ih h

/-- What decoder and buffer come to from a fresh decoder and an empty buffer, as bytes are appended and
replies are read. -/
inductive Reaches (limits : Limits) : Decoder → Bytes → Prop where
  | fresh : Reaches limits ⟨limits, []⟩ []
  | append {d : Decoder} {buf : Bytes} (h : Reaches limits d buf) (bytes : Bytes) :
      Reaches limits d (buf ++ bytes)
  | decode {d : Decoder} {buf : Bytes} (h : Reaches limits d buf) (hlen : buf.length < 2 ^ 62) :
      Reaches limits (d.decode buf).2.1 (d.decode buf).2.2

namespace Reaches

variable {limits : Limits} {d : Decoder} {buf : Bytes}

theorem limits_eq (h : Reaches limits d buf) : d.limits = limits := by
  induction h with
  | fresh => rfl
  | append _ _ ih => exact ih
  | decode _ _ ih => exact (decode_limits _ _).trans ih

theorem consistent (h : Reaches limits d buf) : (d.start buf).Consistent limits := by
  induction h with
  | fresh => exact ⟨nofun, Nat.zero_le _⟩
  | append _ _ ih => exact ⟨ih.counts, ih.depth⟩
  | decode h hlen ih =>
    have hlimits := h.limits_eq
    subst hlimits
    obtain ⟨m, hleads, hend⟩ := leads_decode ih hlen
    obtain ⟨hc, hlen'⟩ := hleads.consistent ih hlen
    exact hc.ends hlen' hend

end Reaches

/-- Whatever bytes were appended and whatever was read of them, the open lists are consistent, and at no
moment of a call is there no step: no offset leaves its word or the buffer, and no count goes below zero. A
list that is completed has as many elements as its header declared, a call takes bytes off whenever it has
nothing in hand, and it gets to the verdict of `decode`. Behind malformed bytes the decoder is a fresh one. -/
theorem frames_consistent {limits : Limits} {d : Decoder} {buf : Bytes} (h : Reaches limits d buf)
    (hlen : buf.length < 2 ^ 62) :
    d.limits = limits ∧ (d.start buf).Consistent limits ∧
    (∀ m, Leads limits (d.start buf) m →
      m.Consistent limits ∧ (∃ x, m.next? limits = some x) ∧
      ∀ m', m.next? limits = some (.goes m') →
        m.Advances limits m' ∧
        (∀ items, m'.hand? = some (.multi (some items)) → m.Declares items.length) ∧
        (m.hand? = none → ∀ m'', Leads limits m' m'' → m''.buf.length < m.buf.length)) ∧
    (∃ m, Leads limits (d.start buf) m ∧ m.next? limits =
      some (.ends (d.decode buf).1 (d.decode buf).2.1.stack (d.decode buf).2.2)) ∧
    ∀ e d' rest, d.decode buf = (.malformed e, d', rest) → d' = ⟨limits, []⟩ := by
  have hlimits := h.limits_eq
  have hstart := h.consistent
  subst hlimits
  refine ⟨rfl, hstart, ?_, leads_decode hstart hlen, fun e d' rest hd => eq_fresh_of_malformed hd⟩
  intro m hleads
  obtain ⟨hc, hlen'⟩ := hleads.consistent hstart hlen
  refine ⟨hc, Moment.exists_next hc hlen', ?_⟩
  intro m' hnext
  have hstep := Moment.advances hc hlen' hnext
  refine ⟨hstep, fun items hm => hstep.declared hc hm, ?_⟩
  intro hm m'' hafter
  have hle := hafter.length_le (hstep.consistent hc) (Nat.lt_of_le_of_lt hstep.length_le hlen')
  exact Nat.lt_of_le_of_lt hle (hstep.length_lt hm)

/-- Two lists are open, the inner one with as many elements as a header can declare, when one more list
comes that is too deep. -/
theorem frames_consistent_too_deep :
    let limits : Limits := ⟨10, 2⟩
    let d : Decoder := ⟨limits, [⟨2 ^ 63 - 1, 2 ^ 63 - 2, [.integer 7]⟩, ⟨2, 2, []⟩]⟩
    let buf := Bytes.ofText "*1\r\n"
    Reaches limits d buf ∧ buf.length < 2 ^ 62 ∧ (d.start buf).Consistent limits ∧
      (∃ m, Leads limits (d.start buf) m ∧
        m.next? limits = some (.ends (.malformed (.depth 2)) [] [])) ∧
      (d.decode buf).2.1 = ⟨limits, []⟩ := by
  intro limits d buf
  let outer := Bytes.ofText "*2\r\n*9223372036854775807\r\n:7\r\n"
  let inner := Bytes.ofText "*9223372036854775807\r\n:7\r\n"
  let first := Bytes.ofText ":7\r\n"
  have houter : front limits 0 outer = .opens 2 inner := rfl
  have hinner : front limits 1 inner = .opens (2 ^ 63 - 1) first := rfl
  have hfirst : front limits 2 first = .value (.integer 7) [] := rfl
  have hmore : Decoder.decode ⟨limits, []⟩ outer = (.more, d, []) := by
    rw [decode_of_opens houter, decode_of_opens hinner, decode_of_value hfirst, settle_of_open rfl]
    exact decode_of_incomplete rfl
  have hreaches : Reaches limits d buf := by
    have hfresh : Reaches limits ⟨limits, []⟩ [] := .fresh
    have hopen := (hfresh.append outer).decode (by decide)
    rw [List.nil_append, hmore] at hopen
    exact hopen.append buf
  have hlast : d.decode buf = (.malformed (.depth 2), ⟨limits, []⟩, []) := decode_of_malformed rfl
  obtain ⟨-, hstart, -, hverdict, hfresh⟩ := frames_consistent hreaches (by decide)
  have hnew := hfresh (.depth 2) (d.decode buf).2.1 [] (by rw [hlast])
  rw [hlast] at hverdict
  exact ⟨hreaches, by decide, hstart, hverdict, hnew⟩

end Decoder

end RespClient.Reply
