import RespClient.Proofs.Address
import RespClient.Proofs.Settings.Backoff

namespace RespClient

namespace Duration

def nanoseconds (d : Duration) : Nat := d.seconds.toNat * 1000000000 + d.nanos.toNat

instance : LE Duration := ⟨fun a b => a.nanoseconds ≤ b.nanoseconds⟩

instance (a b : Duration) : Decidable (a ≤ b) :=
  inferInstanceAs (Decidable (a.nanoseconds ≤ b.nanoseconds))

/-- The whole milliseconds of a span, without a bound. -/
def wholeMillis (d : Duration) : Nat := d.nanoseconds / 1000000

/-- Settings hold the span, or the largest word if the span has no room. -/
def Saturates (d : Duration) : Prop := d.millis.toNat = min d.wholeMillis (2 ^ 64 - 1)

instance (d : Duration) : Decidable d.Saturates :=
  inferInstanceAs (Decidable (d.millis.toNat = min d.wholeMillis (2 ^ 64 - 1)))

theorem wholeMillis_mono {a b : Duration} (h : a ≤ b) : a.wholeMillis ≤ b.wholeMillis :=
  Nat.div_le_div_right h

theorem millis_toNat (d : Duration) : d.millis.toNat = d.wholeMillis % 2 ^ 64 := by
  have hwhole : d.seconds.toNat * 1000 + d.nanos.toNat / 1000000 = d.wholeMillis := by
    unfold wholeMillis nanoseconds
    omega
  rw [millis, hwhole]
  exact UInt64.toNat_ofNat'

theorem saturates_iff {d : Duration} :
    d.Saturates ↔ d.wholeMillis < 2 ^ 64 ∨ d.wholeMillis % 2 ^ 64 = 2 ^ 64 - 1 := by
  unfold Saturates
  rw [millis_toNat]
  omega

end Duration

theorem checkAddresses_eq_ok {as : List String} :
    checkAddresses as = .ok () ↔ ∀ a ∈ as, (Address.parse? a).isSome := by
  induction as with
  | nil => simp [checkAddresses]
  | cons a as ih =>
    cases h : Address.parse? a with
    | none => simp [checkAddresses, Address.split, h, bind, Except.bind]
    | some parts => simp [checkAddresses, Address.split, h, bind, Except.bind, ih]

/-- Settings with these delays, whose seeds are addresses. -/
def ClusterSettings.Paced (s : ClusterSettings) (b : Backoff) : Prop :=
  s.backoff = b ∧ s.seeds ≠ [] ∧ ∀ a ∈ s.seeds, (Address.parse? a).isSome

/-- Settings whose seeds are addresses are refused for their delays alone. -/
theorem ClusterSettings.Paced.validate_eq_ok {s : ClusterSettings} {b : Backoff} (h : s.Paced b) :
    s.validate = .ok () ↔ b.baseMs ≤ b.maxMs := by
  obtain ⟨rfl, hne, haddr⟩ := h
  have hseeds : s.seeds.isEmpty = false := by simpa using hne
  have hok : checkAddresses s.seeds = .ok () := checkAddresses_eq_ok.mpr haddr
  rw [← UInt64.not_lt]
  by_cases hlt : s.backoff.maxMs < s.backoff.baseMs
  · simp [ClusterSettings.validate, hseeds, hok, hlt, bind, Except.bind, throw, throwThe,
      MonadExceptOf.throw]
  · simp [ClusterSettings.validate, hseeds, hok, hlt, bind, Except.bind, pure, Except.pure]

namespace Backoff

variable {base max : Duration}

theorem delay_ofDurations (base max : Duration) (n : UInt32) :
    ((ofDurations base max).delay n).toNat =
      min (base.wholeMillis % 2 ^ 64 * 2 ^ n.toNat) (max.wholeMillis % 2 ^ 64) := by
  rw [delay_toNat]
  change min (base.millis.toNat * 2 ^ n.toNat) max.millis.toNat = _
  rw [Duration.millis_toNat, Duration.millis_toNat]

theorem delay_of_saturates (hb : base.Saturates) (hm : max.Saturates) (n : UInt32) :
    ((ofDurations base max).delay n).toNat =
      min (base.wholeMillis * 2 ^ n.toNat) (min max.wholeMillis (2 ^ 64 - 1)) := by
  rw [delay_toNat]
  change min (base.millis.toNat * 2 ^ n.toNat) max.millis.toNat = _
  rw [hb, hm]
  rcases Nat.le_total base.wholeMillis (2 ^ 64 - 1) with hle | hle
  · rw [Nat.min_eq_left hle]
  · -- Both products are cut off at the largest word.
    have hpow : 1 ≤ 2 ^ n.toNat := Nat.one_le_two_pow
    have hword : 2 ^ 64 - 1 ≤ (2 ^ 64 - 1) * 2 ^ n.toNat := Nat.le_mul_of_pos_right _ hpow
    have hbase : base.wholeMillis ≤ base.wholeMillis * 2 ^ n.toNat := Nat.le_mul_of_pos_right _ hpow
    rw [Nat.min_eq_right hle]
    omega

/-- Two delays tell whether remainders are cut off at the largest word: the first one, and one in which
the base counts for a whole word. -/
theorem remainders_saturate {word b m : Nat} (hword : 1 < word) (hle : b ≤ m) (hpos : 0 < b)
    (hfirst : min (b % word) (m % word) = min b (min m (word - 1)))
    (hlate : min (b % word * word) (m % word) = min (b * word) (min m (word - 1))) :
    b % word = min b (word - 1) ∧ m % word = min m (word - 1) := by
  have hb : b % word < word := Nat.mod_lt _ (by omega)
  have hrem : m % word < word := Nat.mod_lt _ (by omega)
  have hproduct : word ≤ b * word := Nat.le_mul_of_pos_left _ hpos
  -- A base without a remainder would never wait.
  have hkept : 0 < b % word := by
    by_contra hzero
    rw [Nat.eq_zero_of_not_pos hzero] at hlate
    omega
  have hkeptProduct : word ≤ b % word * word := Nat.le_mul_of_pos_left _ hkept
  have hm : m % word = min m (word - 1) := by omega
  refine ⟨?_, hm⟩
  rcases Nat.lt_or_ge b word with hlt | hge
  · rw [Nat.mod_eq_of_lt hlt]
    omega
  · omega

theorem saturates_of_delay (hle : base ≤ max) (hpos : 0 < base.wholeMillis)
    (h : ∀ n : UInt32, ((ofDurations base max).delay n).toNat =
      min (base.wholeMillis * 2 ^ n.toNat) (min max.wholeMillis (2 ^ 64 - 1))) :
    base.Saturates ∧ max.Saturates := by
  have hfirst := h 0
  have hlate := h 64
  rw [delay_ofDurations] at hfirst hlate
  rw [UInt32.toNat_zero, Nat.pow_zero, Nat.mul_one, Nat.mul_one] at hfirst
  rw [show (64 : UInt32).toNat = 64 from rfl] at hlate
  have hwhole := Duration.wholeMillis_mono hle
  unfold Duration.Saturates
  rw [Duration.millis_toNat, Duration.millis_toNat]
  exact remainders_saturate (by decide) hwhole hpos hfirst hlate

/-- Settings keep two spans in order, and delays come to what the spans say, as long as the longer span has
room in a word of milliseconds. Beyond that a span counts by its remainder. Then the delays are right for
every attempt only if the base is below a millisecond or both remainders are what saturation would leave;
and exactly if the remainders are out of order, settings with such delays are refused, and the longer span
makes for the shorter connect timeout. -/
theorem durations_kept_in_range (hle : base ≤ max) :
    (max.wholeMillis < 2 ^ 64 → (ofDurations base max).baseMs ≤ (ofDurations base max).maxMs ∧
      (∀ n, ((ofDurations base max).delay n).toNat =
        min (base.wholeMillis * 2 ^ n.toNat) max.wholeMillis) ∧
      (∀ s : ClusterSettings, s.Paced (ofDurations base max) → s.validate = .ok ()) ∧
      ∀ s : ConnectionSettings, (s.withConnectTimeout base).connectTimeoutMs ≤
        (s.withConnectTimeout max).connectTimeoutMs) ∧
    (∀ n, ((ofDurations base max).delay n).toNat =
      min (base.wholeMillis % 2 ^ 64 * 2 ^ n.toNat) (max.wholeMillis % 2 ^ 64)) ∧
    ((∀ n : UInt32, ((ofDurations base max).delay n).toNat =
        min (base.wholeMillis * 2 ^ n.toNat) (min max.wholeMillis (2 ^ 64 - 1))) ↔
      base.wholeMillis = 0 ∨ base.Saturates ∧ max.Saturates) ∧
    (∀ s : ClusterSettings, s.Paced (ofDurations base max) →
      (s.validate = .ok () ↔ base.wholeMillis % 2 ^ 64 ≤ max.wholeMillis % 2 ^ 64)) ∧
    ∀ s : ConnectionSettings, (s.withConnectTimeout base).connectTimeoutMs ≤
        (s.withConnectTimeout max).connectTimeoutMs ↔
      base.wholeMillis % 2 ^ 64 ≤ max.wholeMillis % 2 ^ 64 := by
  have hwhole := Duration.wholeMillis_mono hle
  have horder : base.millis ≤ max.millis ↔
      base.wholeMillis % 2 ^ 64 ≤ max.wholeMillis % 2 ^ 64 := by
    rw [UInt64.le_iff_toNat_le, Duration.millis_toNat, Duration.millis_toNat]
  refine ⟨?_, delay_ofDurations base max, ⟨?_, ?_⟩, ?_, fun s => horder⟩
  · intro hmax
    have hb : base.Saturates := Duration.saturates_iff.mpr (.inl (by omega))
    have hm : max.Saturates := Duration.saturates_iff.mpr (.inl hmax)
    have hword : base.millis ≤ max.millis := by
      rw [horder, Nat.mod_eq_of_lt hmax, Nat.mod_eq_of_lt (by omega)]
      exact hwhole
    refine ⟨hword, fun n => ?_, fun s hs => hs.validate_eq_ok.mpr hword, fun s => hword⟩
    rw [delay_of_saturates hb hm, Nat.min_eq_left (show max.wholeMillis ≤ 2 ^ 64 - 1 by omega)]
  · intro h
    rcases Nat.eq_zero_or_pos base.wholeMillis with hzero | hpos
    · exact .inl hzero
    · exact .inr (saturates_of_delay hle hpos h)
  · intro h n
    rcases h with hzero | ⟨hb, hm⟩
    · rw [delay_ofDurations, hzero]
      simp
    · exact delay_of_saturates hb hm n
  · intro s hs
    rw [hs.validate_eq_ok]
    exact horder

/-- A span just below two milliseconds, and the longest one that has room. -/
theorem durations_kept_in_range_longest :
    let base : Duration := ⟨0, 1999999⟩
    let max : Duration := ⟨18446744073709551, 615999999⟩
    let b := ofDurations base max
    base ≤ max ∧ max.wholeMillis < 2 ^ 64 ∧ b.baseMs ≤ b.maxMs ∧ (b.delay 63).toNat = 2 ^ 63 ∧
      (b.delay 64).toNat = 2 ^ 64 - 1 ∧
      ClusterSettings.validate { seeds := ["a:1"], backoff := b } = .ok () := by
  intro base max b
  have hle : base ≤ max := by decide
  have hmax : max.wholeMillis < 2 ^ 64 := by decide
  obtain ⟨hword, hdelay, hvalid, -⟩ := (durations_kept_in_range hle).1 hmax
  refine ⟨hle, hmax, hword, ?_, ?_, hvalid _ ⟨rfl, by simp, by decide⟩⟩
  · rw [hdelay]
    decide
  · rw [hdelay]
    decide

/-- One millisecond more than the longest span that has room counts as nothing: a policy with this maximum
never waits and is refused, and a connection with this timeout has none left. -/
theorem longer_span_counts_less :
    let base : Duration := ⟨0, 1000000⟩
    let max : Duration := ⟨18446744073709551, 616000000⟩
    let b := ofDurations base max
    base ≤ max ∧ base.wholeMillis = 1 ∧ max.wholeMillis = 2 ^ 64 ∧ b = ⟨1, 0⟩ ∧ b.delay 0 = 0 ∧
      ClusterSettings.validate { seeds := ["a:1"], backoff := b } =
        .error (.config "backoff base 1ms exceeds max 0ms") ∧
      ∀ s : ConnectionSettings, (s.withConnectTimeout max).connectTimeoutMs = 0 ∧
        (s.withConnectTimeout base).connectTimeoutMs = 1 := by
  intro base max b
  have hmax : max.millis = 0 := by decide
  have hbase : base.millis = 1 := by decide
  exact ⟨by decide, by decide, by decide, by decide, by decide, by decide, fun s => ⟨hmax, hbase⟩⟩

end Backoff

end RespClient
