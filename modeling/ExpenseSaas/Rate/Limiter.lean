import Mathlib.Algebra.Order.Field.Rat
import Mathlib.Data.Rat.Floor
import Mathlib.Tactic.FieldSimp
import Mathlib.Tactic.Linarith
import Mathlib.Tactic.NormNum
import Mathlib.Tactic.Positivity

/-!
# Token buckets

The limiter of `golang.org/x/time/rate` in exact arithmetic: a bucket holds up to
`burst` tokens, gains them at a constant rate and gives one to every event it
allows. Times are whole nanoseconds, so that a limit of one event per interval
moves the bucket in steps of `1 / interval`, and nothing is lost when a waiting
time is rounded down to a whole nanosecond (`allow_fst`).
-/

namespace Rate

/-- `time.Time`, in nanoseconds. -/
abbrev Time : Type := Int

/-- `time.Duration`, in nanoseconds. -/
abbrev Duration : Type := Int

/-- `time.Second`. -/
def second : Duration := 1000000000

/-- `Duration.Seconds`. -/
def seconds (d : Duration) : ℚ := (d : ℚ) / (second : ℚ)

/-- `Limit`: events per second. -/
abbrev Limit : Type := ℚ

/-- `Inf`, which is `math.MaxFloat64` and stands for no limit at all. -/
def inf : Limit := (2 ^ 53 - 1) * 2 ^ 971

/-- `InfDuration`. -/
def infDuration : Duration := 2 ^ 63 - 1

/-- `Every`: one event per interval. -/
def every (interval : Duration) : Limit := if interval ≤ 0 then inf else 1 / seconds interval

/-- `tokensFromDuration`. -/
def tokensFromDuration (limit : Limit) (d : Duration) : ℚ :=
  if limit ≤ 0 then 0 else seconds d * limit

/-- `durationFromTokens`, a whole number of nanoseconds. -/
def durationFromTokens (limit : Limit) (tokens : ℚ) : Duration :=
  if limit ≤ 0 then infDuration else ⌊tokens / limit * second⌋

/-- `Limiter`. -/
structure Limiter where
  limit : Limit
  burst : Int
  tokens : ℚ
  /-- When `tokens` was last brought up to date. -/
  last : Time
  deriving DecidableEq

/-- `NewLimiter`: a full bucket. -/
def newLimiter (limit : Limit) (burst : Int) : Limiter := ⟨limit, burst, burst, 0⟩

namespace Limiter

variable (lim : Limiter)

/-- The time since `tokens` was brought up to date; nothing, for a time before that. -/
def elapsed (t : Time) : Duration := t - if t < lim.last then t else lim.last

/-- `advance`: the tokens at time `t`. -/
def advance (t : Time) : ℚ :=
  min (lim.tokens + tokensFromDuration lim.limit (lim.elapsed t)) lim.burst

/-- How long an event at time `t` has to wait for its token. -/
def waitDuration (t : Time) : Duration :=
  if lim.advance t - 1 < 0 then durationFromTokens lim.limit (-(lim.advance t - 1)) else 0

/-- `Allow`: whether an event may happen at time `t`, and the bucket afterwards. -/
def allow (t : Time) : Bool × Limiter :=
  if lim.limit = inf then (true, lim)
  else if 1 ≤ lim.burst ∧ lim.waitDuration t ≤ 0 then
    (true, { lim with last := t, tokens := lim.advance t - 1 })
  else (false, lim)

end Limiter

theorem tokensFromDuration_nonneg {limit : Limit} {d : Duration} (hd : 0 ≤ d) :
    0 ≤ tokensFromDuration limit d := by
  unfold tokensFromDuration
  by_cases hl : limit ≤ 0
  · rw [if_pos hl]
  · rw [if_neg hl]
    have hsec : 0 ≤ seconds d := div_nonneg (by exact_mod_cast hd) (by norm_num [second])
    exact mul_nonneg hsec (not_le.mp hl).le

theorem Limiter.elapsed_nonneg {lim : Limiter} {t : Time} : 0 ≤ lim.elapsed t := by
  unfold Limiter.elapsed
  by_cases h : t < lim.last
  · rw [if_pos h, sub_self]
  · rw [if_neg h]
    exact sub_nonneg.mpr (not_lt.mp h)

/-- A full bucket stays full. -/
theorem Limiter.advance_of_full {lim : Limiter} {t : Time} (h : lim.tokens = lim.burst) :
    lim.advance t = lim.burst := by
  unfold Limiter.advance
  rw [h, min_eq_right]
  exact le_add_of_nonneg_right (tokensFromDuration_nonneg elapsed_nonneg)

/-! ## One event per interval -/

section

variable {interval : Duration} {lim lim' : Limiter} {t t' : Time}

theorem every_pos (h : 0 < interval) : every interval = (second : ℚ) / interval := by
  unfold every seconds
  rw [if_neg (not_le.mpr h), one_div_div]

theorem every_ne_inf (h : 0 < interval) : every interval ≠ inf := by
  have hone : (1 : ℚ) ≤ interval := by exact_mod_cast h
  have hle : (second : ℚ) / interval ≤ second := div_le_self (by norm_num [second]) hone
  rw [every_pos h]
  have hpow : (1 : ℚ) ≤ 2 ^ 971 := one_le_pow₀ (by norm_num)
  refine ne_of_lt (lt_of_le_of_lt hle ?_)
  calc (second : ℚ) < (2 ^ 53 - 1) * 1 := by norm_num [second]
    _ ≤ inf := mul_le_mul_of_nonneg_left hpow (by norm_num)

theorem tokensFromDuration_every (h : 0 < interval) (d : Duration) :
    tokensFromDuration (every interval) d = d / interval := by
  have hI : (0 : ℚ) < interval := by exact_mod_cast h
  have hs : (0 : ℚ) < second := by norm_num [second]
  unfold tokensFromDuration
  rw [every_pos h, if_neg (not_le.mpr (by positivity))]
  unfold seconds
  field_simp

theorem durationFromTokens_every (h : 0 < interval) (tokens : ℚ) :
    durationFromTokens (every interval) tokens = ⌊tokens * interval⌋ := by
  have hI : (0 : ℚ) < interval := by exact_mod_cast h
  have hs : (0 : ℚ) < second := by norm_num [second]
  unfold durationFromTokens
  rw [every_pos h, if_neg (not_le.mpr (by positivity))]
  congr 1
  field_simp

/-- A bucket for one event per interval, with a whole number of nanoseconds in it. -/
structure Limiter.Every (interval : Duration) (lim : Limiter) : Prop where
  limit : lim.limit = every interval
  whole : ∃ z : ℤ, lim.tokens * interval = z

namespace Limiter.Every

/-- After its last event, the bucket fills until it is full. -/
theorem advance (hI : 0 < interval) (h : lim.Every interval) (ht : lim.last ≤ t) :
    lim.advance t = min (lim.tokens + ((t - lim.last : Int) : ℚ) / interval) lim.burst := by
  unfold Limiter.advance Limiter.elapsed
  rw [if_neg (not_lt.mpr ht), h.limit, tokensFromDuration_every hI]

theorem whole_advance (hI : 0 < interval) (h : lim.Every interval) (t : Time) :
    ∃ z : ℤ, lim.advance t * interval = z := by
  have hpos : (0 : ℚ) < interval := by exact_mod_cast hI
  obtain ⟨z, hz⟩ := h.whole
  unfold Limiter.advance
  rw [h.limit, tokensFromDuration_every hI]
  generalize lim.elapsed t = d
  rcases min_choice (lim.tokens + (d : ℚ) / interval) lim.burst with hm | hm
  · refine ⟨z + d, ?_⟩
    rw [hm, add_mul, hz, div_mul_cancel₀ _ hpos.ne']
    push_cast
    ring
  · exact ⟨lim.burst * interval, by rw [hm]; push_cast; ring⟩

/-- **An event is allowed when there is a token for it.** -/
theorem allow_fst (hI : 0 < interval) (h : lim.Every interval) (hb : 1 ≤ lim.burst) :
    (lim.allow t).1 = true ↔ 1 ≤ lim.advance t := by
  have hpos : (0 : ℚ) < interval := by exact_mod_cast hI
  obtain ⟨z, hz⟩ := h.whole_advance hI t
  unfold Limiter.allow Limiter.waitDuration
  rw [h.limit, if_neg (every_ne_inf hI)]
  simp only [durationFromTokens_every hI, hb, true_and]
  by_cases hlt : lim.advance t - 1 < 0
  · -- What is missing is at least one step of the bucket, and so at least a nanosecond.
    have hmissing : (0 : ℚ) < -(lim.advance t - 1) * interval := mul_pos (neg_pos.mpr hlt) hpos
    have hcast : -(lim.advance t - 1) * interval = ((interval - z : ℤ) : ℚ) := by
      push_cast
      rw [← hz]
      ring
    have hwait : ¬ ⌊-(lim.advance t - 1) * interval⌋ ≤ 0 := by
      rw [hcast] at hmissing ⊢
      rw [Int.floor_intCast]
      exact not_le.mpr (by exact_mod_cast hmissing)
    rw [if_pos hlt, if_neg hwait]
    refine iff_of_false Bool.false_ne_true ?_
    linarith
  · rw [if_neg hlt, if_pos le_rfl]
    refine iff_of_true rfl ?_
    linarith

/-- What an allowed event leaves. -/
theorem allow_snd (hI : 0 < interval) (h : lim.Every interval) (hallow : (lim.allow t).1 = true) :
    (lim.allow t).2 = { lim with last := t, tokens := lim.advance t - 1 } := by
  unfold Limiter.allow at hallow ⊢
  rw [h.limit, if_neg (every_ne_inf hI)] at hallow ⊢
  by_cases hok : 1 ≤ lim.burst ∧ lim.waitDuration t ≤ 0
  · rw [if_pos hok]
  · rw [if_neg hok] at hallow
    cases hallow

/-- An event that is not allowed takes nothing. -/
theorem allow_refused (hallow : (lim.allow t).1 = false) : (lim.allow t).2 = lim := by
  unfold Limiter.allow at hallow ⊢
  by_cases hinf : lim.limit = inf
  · rw [if_pos hinf]
  · rw [if_neg hinf] at hallow ⊢
    by_cases hok : 1 ≤ lim.burst ∧ lim.waitDuration t ≤ 0
    · rw [if_pos hok] at hallow
      cases hallow
    · rw [if_neg hok]

theorem allow (hI : 0 < interval) (h : lim.Every interval) : (lim.allow t).2.Every interval := by
  cases hallow : (lim.allow t).1 with
  | false => rwa [allow_refused hallow]
  | true =>
    rw [h.allow_snd hI hallow]
    obtain ⟨z, hz⟩ := h.whole_advance hI t
    refine ⟨h.limit, z - interval, ?_⟩
    show (lim.advance t - 1) * (interval : ℚ) = _
    rw [sub_mul, hz]
    push_cast
    ring

theorem new {burst : Int} : (newLimiter (every interval) burst).Every interval :=
  ⟨rfl, burst * interval, by push_cast; rfl⟩

end Limiter.Every

end

end Rate
