/-
The rate limit of the proxy, a bucket of tokens for each key.  The bucket is refilled at a whole
number of tokens per second, at least one, however long the window is.  Where that rate is within
the limit for the window, no window sees more than twice the limit; a limit of one per minute lets
a request through every second.
-/
import Aegion.Binary64

namespace Aegion.RateLimit

open Binary64

section Store

/-- Nanoseconds. -/
def second : ℤ := 1000000000

/-- An `int64` after an operation that may overflow. -/
def int64 (n : ℤ) : ℤ := n.bmod 18446744073709551616

/-- `Time.Sub`, which stops at the ends of the range. -/
def sub (now before : ℤ) : ℤ :=
  max (-9223372036854775808) (min 9223372036854775807 (now - before))

variable (doubles : Arithmetic)

/-- `Duration.Seconds`. -/
def seconds (d : ℤ) : ℚ :=
  doubles.round (doubles.round (d.tdiv second : ℤ) +
    doubles.round (doubles.round (d.tmod second : ℤ) / second))

structure TokenBucket where
  tokens : ℤ
  capacity : ℤ
  refillRate : ℤ
  lastRefill : ℤ
deriving Repr, DecidableEq

/-- The rate of a new bucket, at least one. -/
def initialRate (limit window : ℤ) : ℤ :=
  let rate := doubles.toInt (doubles.round (doubles.round limit / seconds doubles window))
  if rate = 0 then 1 else rate

def newBucket (limit window now : ℤ) : TokenBucket :=
  ⟨limit, limit, initialRate doubles limit window, now⟩

def TokenBucket.refill (tb : TokenBucket) (now : ℤ) : TokenBucket :=
  let elapsed := sub now tb.lastRefill
  let tokensToAdd := int64 (doubles.toInt (seconds doubles elapsed) * tb.refillRate)
  if tokensToAdd > 0 then
    { tb with tokens := min tb.capacity (int64 (tb.tokens + tokensToAdd)), lastRefill := now }
  else tb

/-- Whether a token was taken, and otherwise the time to wait. -/
def TokenBucket.consume (tb : TokenBucket) (now : ℤ) : (Bool × ℤ) × TokenBucket :=
  let tb := tb.refill doubles now
  if tb.tokens > 0 then ((true, 0), { tb with tokens := tb.tokens - 1 })
  else ((false, doubles.toInt (doubles.round (second / doubles.round tb.refillRate))), tb)

abbrev MemoryStore := String → Option TokenBucket

def newMemoryStore : MemoryStore := fun _ => none

def MemoryStore.allow (m : MemoryStore) (key : String) (limit window now : ℤ) :
    (Bool × ℤ) × MemoryStore :=
  let bucket := (m key).getD (newBucket doubles limit window now)
  let answer := bucket.consume doubles now
  (answer.1, fun other => if other = key then some answer.2 else m other)

/-- How many of the calls at the given times are allowed from `start` to `stop`. -/
def MemoryStore.allowed (key : String) (limit window start stop : ℤ) :
    MemoryStore → List ℤ → ℕ
  | _, [] => 0
  | m, now :: times =>
      let answer := m.allow doubles key limit window now
      (if start ≤ now ∧ now ≤ stop ∧ answer.1.1 then 1 else 0) +
        MemoryStore.allowed key limit window start stop answer.2 times

end Store

section Seconds

variable (doubles : Arithmetic)

/-- A time in whole seconds and the nanoseconds beyond. -/
theorem seconds_eq {d : ℤ} (hd : 0 ≤ d) (hrange : d < 9223372036854775808) :
    seconds doubles d = doubles.round ((d / second : ℤ) +
      doubles.round (((d % second : ℤ) : ℚ) / second)) := by
  have hwhole : |d / second| ≤ 2 ^ 53 := by
    unfold second
    rw [abs_le]
    omega
  have hpart : |d % second| ≤ 2 ^ 53 := by
    unfold second
    rw [abs_le]
    omega
  rw [seconds, Int.tdiv_eq_ediv_of_nonneg hd, Int.tmod_eq_emod_of_nonneg hd,
    doubles.round_int hwhole, doubles.round_int hpart]

theorem part_nonneg (d : ℤ) : 0 ≤ ((d % second : ℤ) : ℚ) / second := by
  have hmod : 0 ≤ d % second := Int.emod_nonneg d (by decide)
  have hsecond : (0 : ℚ) < second := by
    unfold second
    norm_num
  exact div_nonneg (by exact_mod_cast hmod) hsecond.le

/-- The nanoseconds beyond a whole second stay clear of the next one by more than a rounding. -/
theorem part_le (d : ℤ) : ((d % second : ℤ) : ℚ) / second ≤ 1073741823 / 2 ^ 30 := by
  have hmod : d % second ≤ 999999999 := by
    unfold second
    omega
  have hcast : ((d % second : ℤ) : ℚ) ≤ 999999999 := by exact_mod_cast hmod
  have hsecond : (second : ℚ) = 1000000000 := by
    unfold second
    norm_num
  rw [hsecond]
  linarith

theorem round_part (d : ℤ) :
    0 ≤ doubles.round (((d % second : ℤ) : ℚ) / second) ∧
      doubles.round (((d % second : ℤ) : ℚ) / second) ≤ 1073741823 / 2 ^ 30 := by
  have hlow : |(0 : ℤ)| ≤ 2 ^ 53 := by norm_num
  have hhigh : |(1073741823 : ℤ)| ≤ 2 ^ 53 := by norm_num
  have hbounds := doubles.round_between (e := 30) (by norm_num) hlow hhigh
    (by simpa using part_nonneg d) (by simpa using part_le d)
  simpa using hbounds

theorem seconds_bounds {d : ℤ} (hd : 0 ≤ d) (hrange : d < 9223372036854775808) :
    ((d / second : ℤ) : ℚ) ≤ seconds doubles d ∧
      seconds doubles d ≤ ((d / second + 1 : ℤ) : ℚ) := by
  obtain ⟨hpart, hpart'⟩ := round_part doubles d
  have hwhole : |d / second| ≤ 2 ^ 53 ∧ |d / second + 1| ≤ 2 ^ 53 := by
    unfold second
    rw [abs_le, abs_le]
    omega
  have hbounds := doubles.round_between (e := 0) (Nat.zero_le _) hwhole.1 hwhole.2
    (x := (d / second : ℤ) + doubles.round (((d % second : ℤ) : ℚ) / second))
    (by rw [pow_zero, div_one]; linarith) (by rw [pow_zero, div_one]; push_cast; linarith)
  rwa [pow_zero, div_one, div_one, ← seconds_eq doubles hd hrange] at hbounds

theorem toInt_seconds {d : ℤ} (hd : 0 ≤ d) (hrange : d < 9223372036854775808) :
    doubles.toInt (seconds doubles d) = ⌊seconds doubles d⌋ := by
  obtain ⟨hlow, hhigh⟩ := seconds_bounds doubles hd hrange
  have hwhole : 0 ≤ d / second ∧ d / second + 1 < 2 ^ 63 := by
    unfold second
    omega
  apply doubles.toInt_floor
  · exact le_trans (by exact_mod_cast hwhole.1) hlow
  · exact lt_of_le_of_lt hhigh (by exact_mod_cast hwhole.2)

/-- Truncation never falls short of the whole seconds, and exceeds them by one at most. -/
theorem toInt_seconds_bounds {d : ℤ} (hd : 0 ≤ d) (hrange : d < 9223372036854775808) :
    d / second ≤ doubles.toInt (seconds doubles d) ∧
      doubles.toInt (seconds doubles d) ≤ d / second + 1 := by
  obtain ⟨hlow, hhigh⟩ := seconds_bounds doubles hd hrange
  rw [toInt_seconds doubles hd hrange]
  constructor
  · exact Int.le_floor.mpr hlow
  · exact_mod_cast (Int.floor_le _).trans hhigh

/-- Up to 97 days there is room for the nanoseconds, and truncation is exact. -/
theorem toInt_seconds_eq {d : ℤ} (hd : 0 ≤ d) (hshort : d < 8388608 * second) :
    doubles.toInt (seconds doubles d) = d / second := by
  have hrange : d < 9223372036854775808 := hshort.trans (by decide)
  obtain ⟨hlow, -⟩ := toInt_seconds_bounds doubles hd hrange
  obtain ⟨hpart, hpart'⟩ := round_part doubles d
  have hwhole : |d / second * 2 ^ 30| ≤ 2 ^ 53 ∧
      |d / second * 2 ^ 30 + 1073741823| ≤ 2 ^ 53 := by
    unfold second at hshort ⊢
    rw [abs_le, abs_le]
    omega
  have hbounds := doubles.round_between (e := 30) (by norm_num) hwhole.1 hwhole.2
    (x := (d / second : ℤ) + doubles.round (((d % second : ℤ) : ℚ) / second))
    (by push_cast; linarith) (by push_cast; linarith)
  rw [← seconds_eq doubles hd hrange] at hbounds
  have hnext : seconds doubles d < ((d / second + 1 : ℤ) : ℚ) := by
    refine lt_of_le_of_lt hbounds.2 ?_
    push_cast
    linarith
  have hhigh : doubles.toInt (seconds doubles d) < d / second + 1 := by
    rw [toInt_seconds doubles hd hrange]
    exact Int.floor_lt.mpr hnext
  omega

/-- Truncation gives the whole seconds between two times less than the span apart. -/
def ExactWithin (span : ℤ) : Prop :=
  ∀ before now, before ≤ now → now - before < span →
    doubles.toInt (seconds doubles (sub now before)) = (now - before) / second

theorem exactWithin_of_short {span : ℤ} (hspan : span ≤ 8388608 * second) :
    ExactWithin doubles span := by
  intro before now hnow hshort
  have helapsed : sub now before = now - before := by
    unfold sub second at *
    omega
  rw [helapsed, toInt_seconds_eq doubles (by omega) (by omega)]

end Seconds

section Buckets

/-- A limit and window for which the bucket's numbers stay within 64 bits. -/
structure Regular (doubles : Arithmetic) (limit window : ℤ) : Prop where
  one_le_limit : 1 ≤ limit
  rate_pos : 0 < initialRate doubles limit window
  within : initialRate doubles limit window * 17179869184 + limit < 9223372036854775808

/-- A bucket of the limit and rate, neither overdrawn nor overfull. -/
structure TokenBucket.Fits (tb : TokenBucket) (limit rate : ℤ) : Prop where
  capacity_eq : tb.capacity = limit
  rate_eq : tb.refillRate = rate
  tokens_nonneg : 0 ≤ tb.tokens
  tokens_le : tb.tokens ≤ limit

variable {doubles : Arithmetic} {limit window now : ℤ} {tb : TokenBucket}

theorem int64_eq {n : ℤ} (hlow : 0 ≤ n) (hhigh : n < 9223372036854775808) : int64 n = n :=
  Int.bmod_eq_of_le_mul_two (by omega) (by omega)

/-- Before a second has passed nothing is added. -/
theorem TokenBucket.refill_early (hearly : now - tb.lastRefill < second)
    (hnow : tb.lastRefill ≤ now) : tb.refill doubles now = tb := by
  have hzero : doubles.toInt (seconds doubles (sub now tb.lastRefill)) = 0 := by
    rw [exactWithin_of_short doubles (by decide) _ _ hnow hearly]
    unfold second at *
    omega
  unfold TokenBucket.refill
  dsimp only
  rw [hzero, zero_mul]
  rfl

/-- After that, the bucket is refilled from the whole seconds. -/
theorem TokenBucket.refill_late (hregular : Regular doubles limit window)
    (hfits : tb.Fits limit (initialRate doubles limit window))
    (hlate : second ≤ now - tb.lastRefill) :
    ∃ added, 0 < added ∧ added = doubles.toInt (seconds doubles (sub now tb.lastRefill)) ∧
      tb.refill doubles now = { tb with
        tokens := min limit (tb.tokens + added * initialRate doubles limit window)
        lastRefill := now } := by
  have helapsed : second ≤ sub now tb.lastRefill ∧
      sub now tb.lastRefill < 9223372036854775808 := by
    unfold sub second at *
    omega
  have hnonneg : 0 ≤ sub now tb.lastRefill := le_trans (by decide) helapsed.1
  obtain ⟨hlow, hhigh⟩ := toInt_seconds_bounds doubles hnonneg helapsed.2
  have hpos : 0 < doubles.toInt (seconds doubles (sub now tb.lastRefill)) ∧
      doubles.toInt (seconds doubles (sub now tb.lastRefill)) ≤ 17179869184 := by
    unfold second at *
    omega
  refine ⟨_, hpos.1, rfl, ?_⟩
  have hproduct := mul_pos hpos.1 hregular.rate_pos
  have hbound := mul_le_mul_of_nonneg_right hpos.2 hregular.rate_pos.le
  have hroom := hregular.within
  have htokens := hfits.tokens_le
  have htokens' := hfits.tokens_nonneg
  unfold TokenBucket.refill
  dsimp only
  rw [hfits.rate_eq, hfits.capacity_eq, int64_eq hproduct.le (by linarith), if_pos hproduct,
    int64_eq (by linarith) (by linarith)]

/-- The whole seconds of a refill count at most the smaller of limit and rate each. -/
theorem min_le_add_mul {tokens added : ℤ} (rate : ℤ) (htokens : 0 ≤ tokens) (hadded : 0 < added)
    (hlimit : 1 ≤ limit) : min limit (tokens + added * rate) ≤ tokens + added * min limit rate := by
  rcases le_total limit rate with hle | hle
  · rw [min_eq_left hle]
    have hmul : limit ≤ added * limit := by nlinarith
    exact (min_le_left _ _).trans (by omega)
  · rw [min_eq_right hle]
    exact min_le_right _ _

theorem TokenBucket.Fits.refill (hregular : Regular doubles limit window)
    (hfits : tb.Fits limit (initialRate doubles limit window)) (hnow : tb.lastRefill ≤ now) :
    (tb.refill doubles now).Fits limit (initialRate doubles limit window) ∧
      tb.lastRefill ≤ (tb.refill doubles now).lastRefill ∧
      (tb.refill doubles now).lastRefill ≤ now := by
  by_cases hearly : now - tb.lastRefill < second
  · rw [TokenBucket.refill_early hearly hnow]
    exact ⟨hfits, le_refl _, hnow⟩
  · obtain ⟨added, hadded, -, hrefill⟩ :=
      TokenBucket.refill_late hregular hfits (Int.not_lt.mp hearly)
    have hproduct := mul_pos hadded hregular.rate_pos
    have hlimit := hregular.one_le_limit
    have htokens := hfits.tokens_nonneg
    rw [hrefill]
    exact ⟨⟨hfits.capacity_eq, hfits.rate_eq, le_min (by omega) (by linarith), min_le_left _ _⟩,
      hnow, le_refl _⟩

/-- The bucket after a call, which has taken a token if there was one. -/
def TokenBucket.after (doubles : Arithmetic) (tb : TokenBucket) (now : ℤ) : TokenBucket :=
  (tb.consume doubles now).2

theorem TokenBucket.consume_spec (hregular : Regular doubles limit window)
    (hfits : tb.Fits limit (initialRate doubles limit window)) (hnow : tb.lastRefill ≤ now) :
    (tb.after doubles now).Fits limit (initialRate doubles limit window) ∧
      (tb.after doubles now).lastRefill = (tb.refill doubles now).lastRefill ∧
      (tb.after doubles now).tokens + 1 ≤ limit ∧
      (if (tb.consume doubles now).1.1 then 1 else 0) + (tb.after doubles now).tokens =
        (tb.refill doubles now).tokens := by
  obtain ⟨hrefilled, -⟩ := hfits.refill hregular hnow
  have hlimit := hregular.one_le_limit
  have htokens := hrefilled.tokens_nonneg
  have htokens' := hrefilled.tokens_le
  unfold TokenBucket.after TokenBucket.consume
  dsimp only
  by_cases hsome : (tb.refill doubles now).tokens > 0
  · rw [if_pos hsome]
    exact ⟨⟨hrefilled.capacity_eq, hrefilled.rate_eq, by dsimp only; omega, by dsimp only; omega⟩,
      rfl, by dsimp only; omega, by simp⟩
  · rw [if_neg hsome]
    exact ⟨hrefilled, rfl, by dsimp only; omega, by simp⟩

end Buckets

section Windows

variable {doubles : Arithmetic} {limit window start stop now span : ℤ} {tb : TokenBucket}
  {key : String} {m : MemoryStore} {times : List ℤ}

theorem MemoryStore.allowed_cons (htb : m key = some tb) (now : ℤ) (times : List ℤ) :
    ∃ m' : MemoryStore, m' key = some (tb.after doubles now) ∧
      m.allowed doubles key limit window start stop (now :: times) =
        (if start ≤ now ∧ now ≤ stop ∧ (tb.consume doubles now).1.1 then 1 else 0) +
          m'.allowed doubles key limit window start stop times := by
  refine ⟨(m.allow doubles key limit window now).2, ?_, ?_⟩
  · simp [MemoryStore.allow, htb, TokenBucket.after]
  · simp [MemoryStore.allowed, MemoryStore.allow, htb]

/-- After the window nothing counts. -/
theorem MemoryStore.allowed_late (htimes : ∀ time ∈ times, stop < time) :
    m.allowed doubles key limit window start stop times = 0 := by
  induction times generalizing m with
  | nil => rfl
  | cons now times ih =>
      rw [List.forall_mem_cons] at htimes
      have hnow : ¬(start ≤ now ∧ now ≤ stop ∧
          (m.allow doubles key limit window now).1.1 = true) := fun hin => by omega
      rw [MemoryStore.allowed, if_neg hnow, ih htimes.2]

theorem MemoryStore.allowed_over (hover : stop < now) (hsorted : (now :: times).Pairwise (· ≤ ·)) :
    m.allowed doubles key limit window start stop (now :: times) = 0 := by
  obtain ⟨hlater, -⟩ := List.pairwise_cons.mp hsorted
  refine MemoryStore.allowed_late (List.forall_mem_cons.mpr ⟨hover, fun time htime => ?_⟩)
  exact hover.trans_le (hlater time htime)

/-- What is in the bucket and what the whole seconds until the end can add. -/
def TokenBucket.budget (tb : TokenBucket) (share stop : ℤ) : ℤ :=
  tb.tokens + (stop - tb.lastRefill) / second * share

theorem Regular.share_nonneg (hregular : Regular doubles limit window) :
    0 ≤ min limit (initialRate doubles limit window) :=
  le_min (le_trans zero_le_one hregular.one_le_limit) hregular.rate_pos.le

theorem TokenBucket.Fits.budget_nonneg (hregular : Regular doubles limit window)
    (hfits : tb.Fits limit (initialRate doubles limit window)) (hstop : tb.lastRefill ≤ stop) :
    0 ≤ tb.budget (min limit (initialRate doubles limit window)) stop := by
  have hwhole : 0 ≤ (stop - tb.lastRefill) / second := Int.ediv_nonneg (by omega) (by decide)
  exact add_nonneg hfits.tokens_nonneg (mul_nonneg hwhole hregular.share_nonneg)

/-- A call draws on the budget.  A refill uses up the seconds it counts. -/
theorem TokenBucket.budget_after (hregular : Regular doubles limit window)
    (hfits : tb.Fits limit (initialRate doubles limit window)) (hnow : tb.lastRefill ≤ now)
    (hstop : now ≤ stop) (hexact : ExactWithin doubles span) (hspan : stop - tb.lastRefill < span) :
    (if (tb.consume doubles now).1.1 then 1 else 0) +
      (tb.after doubles now).budget (min limit (initialRate doubles limit window)) stop ≤
        tb.budget (min limit (initialRate doubles limit window)) stop := by
  obtain ⟨-, hlast, -, htaken⟩ := TokenBucket.consume_spec hregular hfits hnow
  unfold TokenBucket.budget
  rw [hlast, ← add_assoc, htaken]
  by_cases hearly : now - tb.lastRefill < second
  · rw [TokenBucket.refill_early hearly hnow]
  · obtain ⟨added, hadded, hcounted, hrefill⟩ :=
      TokenBucket.refill_late hregular hfits (Int.not_lt.mp hearly)
    have hfilled := min_le_add_mul (initialRate doubles limit window) hfits.tokens_nonneg
      hadded hregular.one_le_limit
    have hseconds : added + (stop - now) / second ≤ (stop - tb.lastRefill) / second := by
      rw [hcounted, hexact _ _ hnow (by omega)]
      unfold second
      omega
    have hproduct := mul_le_mul_of_nonneg_right hseconds hregular.share_nonneg
    rw [add_mul] at hproduct
    rw [hrefill]
    dsimp only
    linarith

theorem MemoryStore.allowed_le_budget (hregular : Regular doubles limit window)
    (htb : m key = some tb) (hfits : tb.Fits limit (initialRate doubles limit window))
    (hsorted : (tb.lastRefill :: times).Pairwise (· ≤ ·)) (hstop : tb.lastRefill ≤ stop)
    (hexact : ExactWithin doubles span) (hspan : stop - tb.lastRefill < span) :
    (m.allowed doubles key limit window start stop times : ℤ) ≤
      tb.budget (min limit (initialRate doubles limit window)) stop := by
  induction times generalizing m tb with
  | nil => exact hfits.budget_nonneg hregular hstop
  | cons now times ih =>
      obtain ⟨hlast, hrest⟩ := List.pairwise_cons.mp hsorted
      obtain ⟨hlater, htimes⟩ := List.pairwise_cons.mp hrest
      have hnow : tb.lastRefill ≤ now := hlast now List.mem_cons_self
      rcases Int.lt_or_le stop now with hover | hin
      · rw [MemoryStore.allowed_over hover hrest]
        exact hfits.budget_nonneg hregular hstop
      · obtain ⟨m', hm', hcount⟩ := MemoryStore.allowed_cons htb now times
        obtain ⟨hfits', hlast', -, -⟩ := TokenBucket.consume_spec hregular hfits hnow
        obtain ⟨-, hgrows, hpast⟩ := hfits.refill hregular hnow
        rw [← hlast'] at hgrows hpast
        have hafter := ih hm' hfits'
          (List.pairwise_cons.mpr ⟨fun time htime => hpast.trans (hlater time htime), htimes⟩)
          (hpast.trans hin) (by omega)
        have hbudget := TokenBucket.budget_after hregular hfits hnow hin hexact hspan
        rw [hcount]
        push_cast
        refine le_trans ?_ hbudget
        refine add_le_add ?_ hafter
        split
        · rename_i htaken
          rw [if_pos htaken.2.2]
        · split <;> decide

/-- A rate within the limit for the window: over its whole seconds, and over one second more if
the window has a part of a second.  The doubles have room for the nanoseconds of the window. -/
structure Restrained (doubles : Arithmetic) (limit window : ℤ) : Prop
    extends Regular doubles limit window where
  exact : ExactWithin doubles (window + second)
  whole : window / second * min limit (initialRate doubles limit window) ≤ limit
  part : window % second = 0 ∨
    (window / second + 1) * min limit (initialRate doubles limit window) ≤ limit + 1

/-- A bucket that was full at a time in the window. -/
theorem Restrained.full_le (hrate : Restrained doubles limit window) (hnow : start ≤ now) :
    limit + (start + window - now) / second * min limit (initialRate doubles limit window) ≤
      2 * limit := by
  have hseconds : (start + window - now) / second ≤ window / second :=
    Int.ediv_le_ediv (by decide) (by omega)
  have hproduct := mul_le_mul_of_nonneg_right hseconds hrate.share_nonneg
  have hwhole := hrate.whole
  linarith

/-- A bucket that was refilled less than a second before the window, and used since. -/
theorem Restrained.spent_le (hrate : Restrained doubles limit window) {last : ℤ}
    (hlast : start - last < second) :
    limit + (start + window - last) / second * min limit (initialRate doubles limit window) ≤
      2 * limit + 1 := by
  rcases hrate.part with hwhole | hpart
  · have hseconds : (start + window - last) / second ≤ window / second := by
      unfold second at *
      omega
    have hproduct := mul_le_mul_of_nonneg_right hseconds hrate.share_nonneg
    have hbound := hrate.whole
    linarith
  · have hseconds : (start + window - last) / second ≤ window / second + 1 := by
      unfold second at *
      omega
    have hproduct := mul_le_mul_of_nonneg_right hseconds hrate.share_nonneg
    linarith

/-- A refill within the window fills the bucket at most. -/
theorem MemoryStore.allowed_le_of_refilled (hrate : Restrained doubles limit window)
    (htb : m key = some tb) (hfits : tb.Fits limit (initialRate doubles limit window))
    (hsorted : (tb.lastRefill :: now :: times).Pairwise (· ≤ ·)) (hstart : start ≤ now)
    (hstop : now ≤ start + window) (hlast : (tb.refill doubles now).lastRefill = now) :
    (m.allowed doubles key limit window start (start + window) (now :: times) : ℤ) ≤ 2 * limit := by
  obtain ⟨hbefore, hrest⟩ := List.pairwise_cons.mp hsorted
  have hnow : tb.lastRefill ≤ now := hbefore now List.mem_cons_self
  obtain ⟨m', hm', hcount⟩ := MemoryStore.allowed_cons htb now times
  obtain ⟨hfits', hlast', -, htaken⟩ :=
    TokenBucket.consume_spec hrate.toRegular hfits hnow
  rw [hlast] at hlast'
  have hafter : (m'.allowed doubles key limit window start (start + window) times : ℤ) ≤ _ :=
    MemoryStore.allowed_le_budget hrate.toRegular hm' hfits' (by rwa [hlast']) (by omega)
      hrate.exact (by unfold second; omega)
  have hfull := hrate.full_le hstart
  have hrefilled := (hfits.refill hrate.toRegular hnow).1.tokens_le
  unfold TokenBucket.budget at hafter
  rw [hlast'] at hafter
  have hone : ((if start ≤ now ∧ now ≤ start + window ∧ (tb.consume doubles now).1.1 = true
      then 1 else 0 : ℕ) : ℤ) = if (tb.consume doubles now).1.1 then 1 else 0 := by
    simp [hstart, hstop]
  rw [hcount, Nat.cast_add, hone]
  linarith

theorem MemoryStore.allowed_le_of_spent (hrate : Restrained doubles limit window)
    (htb : m key = some tb) (hfits : tb.Fits limit (initialRate doubles limit window))
    (hspent : tb.tokens + 1 ≤ limit) (hsorted : (tb.lastRefill :: times).Pairwise (· ≤ ·)) :
    (m.allowed doubles key limit window start (start + window) times : ℤ) ≤ 2 * limit := by
  have hlimit := hrate.one_le_limit
  induction times generalizing m tb with
  | nil =>
      change (0 : ℤ) ≤ 2 * limit
      omega
  | cons now times ih =>
      obtain ⟨hlast, hrest⟩ := List.pairwise_cons.mp hsorted
      obtain ⟨hlater, htimes⟩ := List.pairwise_cons.mp hrest
      have hnow : tb.lastRefill ≤ now := hlast now List.mem_cons_self
      obtain ⟨-, -, hpast⟩ := hfits.refill hrate.toRegular hnow
      rcases Int.lt_or_le now start with hbefore | hstart
      · -- the window has not begun, and the call leaves a bucket that is not full
        obtain ⟨m', hm', hcount⟩ := MemoryStore.allowed_cons htb now times
        obtain ⟨hfits', hlast', hspent', -⟩ :=
          TokenBucket.consume_spec hrate.toRegular hfits hnow
        rw [hcount, if_neg (by omega), zero_add]
        rw [← hlast'] at hpast
        exact ih hm' hfits' hspent'
          (List.pairwise_cons.mpr ⟨fun time htime => hpast.trans (hlater time htime), htimes⟩)
      rcases Int.lt_or_le (start + window) now with hover | hstop
      · rw [MemoryStore.allowed_over hover hrest]
        change (0 : ℤ) ≤ 2 * limit
        omega
      by_cases hearly : now - tb.lastRefill < second
      · have hbudget : (m.allowed doubles key limit window start (start + window)
            (now :: times) : ℤ) ≤ _ :=
          MemoryStore.allowed_le_budget hrate.toRegular htb hfits hsorted (by omega)
            hrate.exact (by omega)
        have hwindow := hrate.spent_le (show start - tb.lastRefill < second by omega)
        unfold TokenBucket.budget at hbudget
        linarith
      · obtain ⟨added, -, -, hrefill⟩ :=
          TokenBucket.refill_late hrate.toRegular hfits (Int.not_lt.mp hearly)
        exact MemoryStore.allowed_le_of_refilled hrate htb hfits hsorted hstart hstop
          (by rw [hrefill])

theorem MemoryStore.allowed_new (hm : m key = none) (now : ℤ) (times : List ℤ) :
    ∃ m' : MemoryStore, m' key = some (newBucket doubles limit window now) ∧
      m.allowed doubles key limit window start stop (now :: times) =
        m'.allowed doubles key limit window start stop (now :: times) := by
  refine ⟨fun other => if other = key then some (newBucket doubles limit window now) else m other,
    if_pos rfl, ?_⟩
  have hsame : m.allow doubles key limit window now = MemoryStore.allow doubles
      (fun other => if other = key then some (newBucket doubles limit window now) else m other)
      key limit window now := by
    simp only [MemoryStore.allow, hm, if_true, Option.getD_none, Option.getD_some, Prod.mk.injEq,
      true_and]
    funext other
    by_cases hother : other = key
    · rw [if_pos hother, if_pos hother]
    · rw [if_neg hother, if_neg hother, if_neg hother]
  rw [MemoryStore.allowed, MemoryStore.allowed, hsame]

theorem Regular.newBucket_fits (hregular : Regular doubles limit window) (now : ℤ) :
    (newBucket doubles limit window now).Fits limit (initialRate doubles limit window) :=
  ⟨rfl, rfl, le_trans zero_le_one hregular.one_le_limit, le_refl _⟩

/-- A restrained rate allows at most twice the limit in any window. -/
theorem allowed_le_twice_limit (hrate : Restrained doubles limit window) (key : String)
    (start : ℤ) {times : List ℤ} (hsorted : times.Pairwise (· ≤ ·)) :
    (newMemoryStore.allowed doubles key limit window start (start + window) times : ℤ) ≤
      2 * limit := by
  have hlimit := hrate.one_le_limit
  cases times with
  | nil =>
      change (0 : ℤ) ≤ 2 * limit
      omega
  | cons now times =>
      obtain ⟨m, hm, hcount⟩ : ∃ m : MemoryStore,
          m key = some (newBucket doubles limit window now) ∧
            newMemoryStore.allowed doubles key limit window start (start + window) (now :: times) =
              m.allowed doubles key limit window start (start + window) (now :: times) :=
        MemoryStore.allowed_new rfl now times
      have hfits := hrate.newBucket_fits now
      obtain ⟨hlater, htimes⟩ := List.pairwise_cons.mp hsorted
      have hrefill : (newBucket doubles limit window now).refill doubles now =
          newBucket doubles limit window now :=
        TokenBucket.refill_early (by simp [newBucket, second]) (le_refl _)
      rw [hcount]
      rcases Int.lt_or_le now start with hbefore | hstart
      · obtain ⟨m', hm', hnext⟩ := MemoryStore.allowed_cons hm now times
        obtain ⟨hfits', hlast', hspent', -⟩ :=
          TokenBucket.consume_spec hrate.toRegular hfits (le_refl now)
        rw [hrefill] at hlast'
        rw [hnext, if_neg (by omega), zero_add]
        exact MemoryStore.allowed_le_of_spent hrate hm' hfits' hspent' (by rwa [hlast'])
      rcases Int.lt_or_le (start + window) now with hover | hstop
      · rw [MemoryStore.allowed_over hover hsorted]
        change (0 : ℤ) ≤ 2 * limit
        omega
      · have hdoubled : ((newBucket doubles limit window now).lastRefill :: now :: times).Pairwise
            (· ≤ ·) :=
          List.pairwise_cons.mpr ⟨List.forall_mem_cons.mpr ⟨le_refl _, hlater⟩, hsorted⟩
        exact MemoryStore.allowed_le_of_refilled hrate hm hfits hdoubled hstart hstop
          (by rw [hrefill]; rfl)

/-- Doubles of unlimited precision. -/
def exactArithmetic : Arithmetic where
  round := id
  toInt x := ⌊x⌋
  round_mono _ _ h := h
  round_dyadic _ _ _ _ := rfl
  toInt_floor _ _ _ := rfl

theorem initialRate_ten : initialRate exactArithmetic 10 second = 10 := by
  decide +kernel

theorem ten_per_second : Restrained exactArithmetic 10 second ∧
    (newMemoryStore.allowed exactArithmetic "ip:10.0.0.1" 10 second 0 (0 + second) [0, 5, second] :
      ℤ) ≤ 2 * 10 := by
  have hrate : Restrained exactArithmetic 10 second :=
    { one_le_limit := by decide
      rate_pos := by rw [initialRate_ten]; decide
      within := by rw [initialRate_ten]; decide
      exact := exactWithin_of_short _ (by decide)
      whole := by rw [initialRate_ten]; decide
      part := Or.inl (by decide) }
  exact ⟨hrate, allowed_le_twice_limit hrate _ 0 (by decide)⟩

theorem seconds_minute (doubles : Arithmetic) : seconds doubles (60 * second) = 60 := by
  have hwhole : (60 * second) / second = 60 := by decide
  have hpart : (60 * second) % second = 0 := by decide
  have hzero : doubles.round 0 = 0 := by
    simpa using doubles.round_int (show |(0 : ℤ)| ≤ 2 ^ 53 by norm_num)
  have hsixty : doubles.round 60 = 60 := by
    simpa using doubles.round_int (show |(60 : ℤ)| ≤ 2 ^ 53 by norm_num)
  rw [seconds_eq doubles (by decide) (by decide), hwhole, hpart, Int.cast_zero, zero_div, hzero,
    add_zero]
  exact_mod_cast hsixty

/-- One request per minute is a sixtieth of a token per second, which becomes one. -/
theorem initialRate_minute (doubles : Arithmetic) : initialRate doubles 1 (60 * second) = 1 := by
  have hone : doubles.round ((1 : ℤ) : ℚ) = 1 := by
    simpa using doubles.round_int (show |(1 : ℤ)| ≤ 2 ^ 53 by norm_num)
  have hlow : |(0 : ℤ)| ≤ 2 ^ 53 := by norm_num
  have hhigh : |(1 : ℤ)| ≤ 2 ^ 53 := by norm_num
  have hbounds := doubles.round_between (x := 1 / 60) (e := 1) (by norm_num) hlow hhigh
    (by norm_num) (by norm_num)
  have hzero : doubles.toInt (doubles.round (1 / 60)) = 0 := by
    norm_num at hbounds
    rw [doubles.toInt_floor _ (by linarith) (by linarith), Int.floor_eq_zero_iff]
    exact ⟨by linarith, by linarith⟩
  unfold initialRate
  dsimp only
  rw [hone, seconds_minute, hzero, if_pos rfl]

theorem consume_after_second (doubles : Arithmetic) (t : ℤ) :
    TokenBucket.consume doubles ⟨0, 1, 1, t⟩ (t + second) = ((true, 0), ⟨0, 1, 1, t + second⟩) := by
  have helapsed : sub (t + second) t = second := by
    unfold sub second
    omega
  have hone : doubles.toInt (seconds doubles second) = 1 :=
    toInt_seconds_eq doubles (by decide) (by decide)
  have hrefill : TokenBucket.refill doubles ⟨0, 1, 1, t⟩ (t + second) = ⟨1, 1, 1, t + second⟩ := by
    unfold TokenBucket.refill
    dsimp only
    rw [helapsed, hone]
    rfl
  unfold TokenBucket.consume
  rw [hrefill]
  rfl

/-- A limit of one per minute allows a request every second, however doubles are rounded. -/
theorem allowed_one_per_minute (doubles : Arithmetic) :
    newMemoryStore.allowed doubles "ip:10.0.0.1" 1 (60 * second) 0 (0 + 60 * second)
      [0, second, 2 * second] = 3 := by
  have hrefill : (newBucket doubles 1 (60 * second) 0).refill doubles 0 = ⟨1, 1, 1, 0⟩ := by
    rw [newBucket, initialRate_minute]
    exact TokenBucket.refill_early (by decide) (by decide)
  have hnew : (newBucket doubles 1 (60 * second) 0).consume doubles 0 =
      ((true, 0), ⟨0, 1, 1, 0⟩) := by
    unfold TokenBucket.consume
    rw [hrefill]
    rfl
  have hfirst := consume_after_second doubles 0
  have hsecond := consume_after_second doubles second
  rw [zero_add] at hfirst
  rw [← two_mul] at hsecond
  have htimes : (0 : ℤ) ≤ second ∧ second ≤ 60 * second ∧ 2 * second ≤ 60 * second := by decide
  simp [MemoryStore.allowed, MemoryStore.allow, newMemoryStore, hnew, hfirst, hsecond, htimes]

theorem one_per_minute_exceeded :
    ¬(newMemoryStore.allowed exactArithmetic "ip:10.0.0.1" 1 (60 * second) 0 (0 + 60 * second)
      [0, second, 2 * second] : ℤ) ≤ 2 * 1 := by
  rw [allowed_one_per_minute]
  decide

end Windows

end Aegion.RateLimit
