import RespClient.Proofs.Reply.Grammar

namespace RespClient.Reply

def Drained.behind (rs : List Reply) (x : Drained) : Drained :=
  { x with replies := rs ++ x.replies }

namespace Decoder

theorem drain_of_more {d d' : Decoder} {buf rest : Bytes} (h : d.decode buf = (.more, d', rest)) :
    d.drain buf = ⟨[], d', rest, none⟩ := by
  rw [drain]
  split <;> simp_all

theorem drain_of_malformed {d d' : Decoder} {buf rest : Bytes} {m : Malformed}
    (h : d.decode buf = (.malformed m, d', rest)) : d.drain buf = ⟨[], d', rest, some m⟩ := by
  rw [drain]
  split <;> simp_all

theorem drain_of_reply {d d' : Decoder} {buf rest : Bytes} {r : Reply}
    (h : d.decode buf = (.reply r, d', rest)) : d.drain buf = (d'.drain rest).behind [r] := by
  rw [drain]
  split <;> simp_all [Drained.behind]

theorem drain_congr {d d' : Decoder} {buf buf' : Bytes} (h : d.decode buf = d'.decode buf') :
    d.drain buf = d'.drain buf' := by
  rcases hv : d'.decode buf' with ⟨v, e, rest⟩
  rw [hv] at h
  cases v with
  | more => rw [drain_of_more h, drain_of_more hv]
  | malformed m => rw [drain_of_malformed h, drain_of_malformed hv]
  | reply r => rw [drain_of_reply h, drain_of_reply hv]

end Decoder

/-- More bytes arrive where draining stopped. -/
def Drained.resume (x : Drained) (more : Bytes) : Drained :=
  match x.failure with
  | some _ => { x with rest := x.rest ++ more }
  | none => (x.decoder.drain (x.rest ++ more)).behind x.replies

theorem Drained.resume_behind (rs : List Reply) (x : Drained) (more : Bytes) :
    (x.behind rs).resume more = (x.resume more).behind rs := by
  unfold resume behind
  cases hf : x.failure <;> simp

namespace Decoder

/-- Draining a buffer and then more bytes is draining all of them. -/
theorem drain_append (d : Decoder) (buf more : Bytes) :
    d.drain (buf ++ more) = (d.drain buf).resume more := by
  have ha := decode_append d buf more
  fun_induction Decoder.drain d buf with
  | case1 d buf d' rest h =>
    rw [h] at ha
    rw [drain_congr ha]
    rfl
  | case2 d buf m d' rest h =>
    rw [h] at ha
    exact drain_of_malformed ha
  | case3 d buf r d' rest h x ih =>
    rw [h] at ha
    rw [drain_of_reply ha, ih (decode_append d' rest more)]
    exact (Drained.resume_behind [r] x more).symm

/-- Where draining stopped without failure, no reply is complete. -/
theorem decode_of_drained (d : Decoder) (buf : Bytes) (h : (d.drain buf).failure = none) :
    (d.drain buf).decoder.decode (d.drain buf).rest =
      (.more, (d.drain buf).decoder, (d.drain buf).rest) := by
  fun_induction Decoder.drain d buf with
  | case1 d buf d' rest hm => exact decode_idle hm
  | case2 => cases h
  | case3 d buf r d' rest hr x ih => exact ih h

theorem drain_wires {limits : Limits} {rs : List Reply} {w : Bytes}
    (h : Wires limits.bulk limits.depth rs w) (rest : Bytes) :
    drain ⟨limits, []⟩ (w ++ rest) = (drain ⟨limits, []⟩ rest).behind rs := by
  induction rs generalizing w with
  | nil =>
    cases h
    rfl
  | cons r rs ih =>
    cases h with
    | cons head tail =>
      rw [List.append_assoc, drain_of_reply (decode_acceptable head _), ih tail]
      rfl

/-- Chunks are fed one after the other, up to the first malformed bytes. -/
def feed (d : Decoder) (buf : Bytes) : List Bytes → Drained
  | [] => ⟨[], d, buf, none⟩
  | chunk :: chunks =>
    let x := d.drain (buf ++ chunk)
    match x.failure with
    | some _ => x
    | none => (feed x.decoder x.rest chunks).behind x.replies

end Decoder

/-- The same outcome: replies, failure and open lists, and without failure the bytes that are left.
-/
structure Drained.Agrees (x y : Drained) : Prop where
  replies : x.replies = y.replies
  failure : x.failure = y.failure
  decoder : x.decoder = y.decoder
  rest : x.failure = none → x.rest = y.rest

namespace Drained.Agrees

theorem symm {x y : Drained} (h : x.Agrees y) : y.Agrees x :=
  ⟨h.replies.symm, h.failure.symm, h.decoder.symm, fun hf => (h.rest (h.failure.trans hf)).symm⟩

theorem trans {x y z : Drained} (h : x.Agrees y) (h' : y.Agrees z) : x.Agrees z :=
  ⟨h.replies.trans h'.replies, h.failure.trans h'.failure, h.decoder.trans h'.decoder,
    fun hf => (h.rest hf).trans (h'.rest (h.failure ▸ hf))⟩

theorem behind {x y : Drained} (h : x.Agrees y) (rs : List Reply) :
    (x.behind rs).Agrees (y.behind rs) :=
  ⟨congrArg (rs ++ ·) h.replies, h.failure, h.decoder, h.rest⟩

end Drained.Agrees

/-- The complete replies at the front of a stream. -/
def decoded (stream : Bytes) : List Reply := (Decoder.drain {} stream).replies

theorem decoded_wires {rs : List Reply} {w : Bytes}
    (h : Wires ({} : Limits).bulk ({} : Limits).depth rs w) (rest : Bytes) :
    decoded (w ++ rest) = rs ++ decoded rest := by
  rw [decoded, Decoder.drain_wires h rest]
  rfl

namespace Decoder

/-- Feeding chunks comes to draining the whole stream, if nothing was complete before. -/
theorem feed_agrees (d : Decoder) (buf : Bytes) (chunks : List Bytes)
    (h : d.decode buf = (.more, d, buf)) :
    (d.feed buf chunks).Agrees (d.drain (buf ++ chunks.flatten)) := by
  induction chunks generalizing d buf with
  | nil =>
    rw [List.flatten_nil, List.append_nil, drain_of_more h]
    exact ⟨rfl, rfl, rfl, fun _ => rfl⟩
  | cons chunk chunks ih =>
    rw [List.flatten_cons, ← List.append_assoc, drain_append]
    cases hf : (d.drain (buf ++ chunk)).failure with
    | some m =>
      simp only [feed, Drained.resume, hf]
      exact ⟨rfl, hf, rfl, fun hn => absurd (hf.symm.trans hn) (by simp)⟩
    | none =>
      simp only [feed, Drained.resume, hf]
      exact (ih _ _ (decode_of_drained d _ hf)).behind _

theorem decode_nil (d : Decoder) : d.decode [] = (.more, d, []) :=
  decode_of_incomplete (front_of_not_mem _ _ (by simp))

/-- A part of a wire form that is not all of it is no reply yet. -/
theorem decode_proper_part {limits : Limits} {r : Reply} {w p q : Bytes}
    (h : Acceptable limits r w) (hw : w = p ++ q) (hq : q ≠ []) :
    ∃ d rest, Decoder.decode ⟨limits, []⟩ p = (.more, d, rest) := by
  have hall := decode_acceptable h []
  rw [List.append_nil, hw, decode_append] at hall
  rcases hp : Decoder.decode ⟨limits, []⟩ p with ⟨v, d, rest⟩
  rw [hp] at hall
  cases v with
  | more => exact ⟨d, rest, rfl⟩
  | malformed m => cases hall
  | reply r' =>
    have hrest : rest ++ q = [] := congrArg (·.2.2) hall
    exact absurd (List.append_eq_nil_iff.1 hrest).2 hq

end Decoder

/-- However a stream is cut into chunks, feeding them yields the same replies, the same failure if
there is one, and else the same open lists and the same bytes left. A wire form that has not arrived
in full is no reply yet, and where bytes are missing, asking again changes nothing. -/
theorem feed_chunks_agree (limits : Limits) (chunks chunks' : List Bytes)
    (h : chunks.flatten = chunks'.flatten) :
    (Decoder.feed ⟨limits, []⟩ [] chunks).Agrees (Decoder.feed ⟨limits, []⟩ [] chunks') ∧
    (∀ r w p q, Acceptable limits r w → w = p ++ q → q ≠ [] →
      ∃ d rest, Decoder.decode ⟨limits, []⟩ p = (.more, d, rest)) ∧
    ∀ (d d' : Decoder) buf rest, d.decode buf = (.more, d', rest) →
      d'.decode rest = (.more, d', rest) := by
  refine ⟨?_, ?_, ?_⟩
  · have hx := Decoder.feed_agrees ⟨limits, []⟩ [] chunks (Decoder.decode_nil _)
    have hy := Decoder.feed_agrees ⟨limits, []⟩ [] chunks' (Decoder.decode_nil _)
    rw [h] at hx
    exact hx.trans hy.symm
  · intro r w p q hr hw hq
    exact Decoder.decode_proper_part hr hw hq
  · intro d d' buf rest hd
    exact Decoder.decode_idle hd

/-- A list with one bulk, whose payload is a line end, before malformed bytes: cut inside the
header, the payload and a line end, or not cut at all. -/
theorem feed_chunks_agree_line_end :
    let w : Bytes := [42, 49, 13, 10, 36, 50, 13, 10, 13, 10, 13, 10]
    let chunks : List Bytes := [[42, 49, 13], [10, 36, 50, 13, 10, 13], [], [10, 13], [10, 33, 10]]
    chunks.flatten = [w ++ [33, 10]].flatten ∧
      Acceptable {} (.multi (some [.bulk (some Bytes.crlf)])) w ∧
      (Decoder.feed ⟨{}, []⟩ [] chunks).Agrees (Decoder.feed ⟨{}, []⟩ [] [w ++ [33, 10]]) ∧
      ∃ d rest, Decoder.decode ⟨{}, []⟩ [42, 49, 13, 10, 36, 50, 13, 10, 13, 10, 13] =
        (.more, d, rest) := by
  have hcount : Numeral [49] 1 := numeral?_eq_some.1 (by decide)
  have hlength : Numeral [50] Bytes.crlf.length := numeral?_eq_some.1 (by decide)
  have hw : Acceptable {} (.multi (some [.bulk (some Bytes.crlf)]))
      [42, 49, 13, 10, 36, 50, 13, 10, 13, 10, 13, 10] :=
    .multi hcount (.cons (.bulk hlength (by decide)) .nil)
  have h := feed_chunks_agree {}
    [[42, 49, 13], [10, 36, 50, 13, 10, 13], [], [10, 13], [10, 33, 10]]
    [[42, 49, 13, 10, 36, 50, 13, 10, 13, 10, 13, 10] ++ [33, 10]] (by decide)
  exact ⟨by decide, hw, h.1, h.2.1 _ _ _ [10] hw rfl (by decide)⟩

end RespClient.Reply
