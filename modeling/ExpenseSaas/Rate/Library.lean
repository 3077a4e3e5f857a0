import ExpenseSaas.Rate.Conforms

/-!
# Limiters of a library

A library of limiters is what a program can do with them: make one, ask how many
tokens there are, and ask for one. `TokenBucket` is what the documentation of
`golang.org/x/time/rate` promises of its limiters, which compute in floating point:
every number of tokens may be off by a rounding error, and a wait of less than a
nanosecond is none. The limiters of exact arithmetic are one such library.

Rounding errors add up, but no faster than the tokens they are made on. So a bucket
never has less in it than an exact one whose interval is a nanosecond longer
(`Richer.ask`), and never more than one whose interval is a nanosecond shorter
(`Poorer.ask`).
-/

namespace Rate

/-- The limiters of a package. -/
structure Library where
  Limit : Type
  Limiter : Type
  /-- `Every`. -/
  every : Duration → Limit
  /-- `NewLimiter`. -/
  newLimiter : Limit → Int → Limiter
  /-- `Tokens`, at a time. -/
  tokens : Limiter → Time → ℚ
  /-- `Allow`, at a time, and the limiter afterwards. -/
  allow : Limiter → Time → Bool × Limiter

/-- Limiters that compute exactly. -/
abbrev exact : Library := ⟨Limit, Limiter, every, newLimiter, Limiter.advance, Limiter.allow⟩

namespace Library

variable {lib : Library} {interval : Duration} {burst : Int} {e : ℚ}

/-- The limiters there are of one event per interval, by the time they have last been asked. -/
inductive Made (lib : Library) (interval : Duration) (burst : Int) : Time → lib.Limiter → Prop where
  | new (now : Time) : Made lib interval burst now (lib.newLimiter (lib.every interval) burst)
  | later {now t : Time} {l : lib.Limiter} : Made lib interval burst now l → now ≤ t →
      Made lib interval burst t l
  | allow {now : Time} {l : lib.Limiter} : Made lib interval burst now l →
      Made lib interval burst now (lib.allow l now).2

/--
**What the limiters do**: a bucket of up to `burst` tokens, full at first, that gains
one per interval and gives one to every event it allows; all of it up to a rounding
error `e`, and a wait of less than half a nanosecond, but of no more than one, is none.
-/
structure TokenBucket (lib : Library) (interval : Duration) (burst : Int) (e : ℚ) : Prop where
  full : ∀ t, lib.tokens (lib.newLimiter (lib.every interval) burst) t = burst
  capped : ∀ {now l}, Made lib interval burst now l → lib.tokens l now ≤ burst
  refills : ∀ {now t l}, Made lib interval burst now l → now ≤ t →
    |lib.tokens l t - min (lib.tokens l now + ((t - now : Int) : ℚ) / interval) burst| ≤ e
  takes : ∀ {now l}, Made lib interval burst now l → (lib.allow l now).1 = true →
    |lib.tokens (lib.allow l now).2 now - (lib.tokens l now - 1)| ≤ e
  refuses : ∀ {now l}, Made lib interval burst now l → (lib.allow l now).1 = false →
    (lib.allow l now).2 = l
  grants : ∀ {now l}, Made lib interval burst now l → 1 - 1 / (2 * interval) ≤ lib.tokens l now →
    (lib.allow l now).1 = true
  needs : ∀ {now l}, Made lib interval burst now l → (lib.allow l now).1 = true →
    1 - 1 / interval - e ≤ lib.tokens l now

/-- The rounding error is small: on all tokens together less than a quarter of a nanosecond's worth. -/
structure Fine (interval : Duration) (burst : Int) (e : ℚ) : Prop where
  long : 1 < interval
  room : 1 ≤ burst
  nonneg : 0 ≤ e
  small : 4 * burst * e * interval ≤ 1

/-! ## Bounds on the tokens that are missing -/

/-- No more is missing than in an exact bucket that has given `z` tokens. -/
structure Richer (lib : Library) (interval : Duration) (burst : Int) (e z : ℚ) (s : Time)
    (l : lib.Limiter) : Prop where
  made : Made lib interval burst s l
  nonneg : 0 ≤ z
  bound : burst - lib.tokens l s ≤ (1 + 2 * e) * z

/-- No less is missing. -/
structure Poorer (lib : Library) (interval : Duration) (burst : Int) (e z : ℚ) (s : Time)
    (l : lib.Limiter) : Prop where
  made : Made lib interval burst s l
  nonneg : 0 ≤ z
  bound : (1 - 2 * e) * z ≤ burst - lib.tokens l s

/-- What is lacking of `z` tokens after some time. -/
def lacking (interval : Duration) (z : ℚ) (s t : Time) : ℚ := max (z - ((t - s : Int) : ℚ) / interval) 0

variable {z : ℚ} {s t : Time} {l : lib.Limiter}

theorem lacking_nonneg : 0 ≤ lacking interval z s t := le_max_right _ _

theorem Richer.new (hlib : TokenBucket lib interval burst e) (he : 0 ≤ e) (hz : 0 ≤ z) :
    Richer lib interval burst e z t (lib.newLimiter (lib.every interval) burst) := by
  refine ⟨.new t, hz, ?_⟩
  rw [hlib.full, sub_self]
  exact mul_nonneg (by linarith) hz

theorem Poorer.new (hlib : TokenBucket lib interval burst e) :
    Poorer lib interval burst e 0 t (lib.newLimiter (lib.every interval) burst) := by
  refine ⟨.new t, le_rfl, ?_⟩
  rw [hlib.full, sub_self, mul_zero]

/-- Nothing is missing that has not been given. -/
theorem Poorer.zero (hlib : TokenBucket lib interval burst e) (h : Made lib interval burst s l) :
    Poorer lib interval burst e 0 s l := by
  refine ⟨h, le_rfl, ?_⟩
  rw [mul_zero]
  exact sub_nonneg.mpr (hlib.capped h)

/-- What is missing after some time, as the limiter counts. -/
theorem abs_missing_le (hlib : TokenBucket lib interval burst e) (h : Made lib interval burst s l)
    (ht : s ≤ t) : |(burst - lib.tokens l t) -
      max (burst - lib.tokens l s - ((t - s : Int) : ℚ) / interval) 0| ≤ e := by
  have hrefill := hlib.refills h ht
  have hmax : max ((burst : ℚ) - lib.tokens l s - ((t - s : Int) : ℚ) / interval) 0 =
      burst - min (lib.tokens l s + ((t - s : Int) : ℚ) / interval) burst := by
    rcases le_total (lib.tokens l s + ((t - s : Int) : ℚ) / interval) burst with hle | hle
    · rw [min_eq_left hle, max_eq_left (by linarith)]
      ring
    · rw [min_eq_right hle, max_eq_right (by linarith), sub_self]
  rw [hmax, abs_sub_comm]
  rw [abs_le] at hrefill ⊢
  constructor <;> linarith [hrefill.1, hrefill.2]

/-- The errors made on `x` tokens are made up for by a nanosecond in each interval. -/
theorem Fine.error_le (h : Fine interval burst e) : 2 * e * interval ≤ 1 := by
  have hb : (1 : ℚ) ≤ burst := by exact_mod_cast h.room
  have hI : (0 : ℚ) ≤ interval := by exact_mod_cast (by linarith [h.long] : (0 : Int) ≤ interval)
  have hpos : 0 ≤ e * interval := mul_nonneg h.nonneg hI
  nlinarith [h.small]

/-- **A richer bucket allows what an exact one would, with a longer interval.** -/
theorem Richer.ask (hlib : TokenBucket lib interval burst e) (hfine : Fine interval burst e)
    (h : Richer lib interval burst e z s l) (ht : s ≤ t)
    (hroom : lacking (interval + 1) z s t + 1 ≤ burst) :
    (lib.allow l t).1 = true ∧
      Richer lib interval burst e (lacking (interval + 1) z s t + 1) t (lib.allow l t).2 := by
  have hI : (0 : ℚ) < interval := by exact_mod_cast (by linarith [hfine.long] : (0 : Int) < interval)
  have hI' : (0 : ℚ) < (interval + 1 : Int) := by push_cast; linarith
  have hspan : (0 : ℚ) ≤ ((t - s : Int) : ℚ) := by exact_mod_cast sub_nonneg.mpr ht
  have he := hfine.nonneg
  have hz : 0 ≤ lacking (interval + 1) z s t := lacking_nonneg
  have hmade := h.made.later ht
  -- A nanosecond more in every interval is worth more than the error.
  have hslower : (1 + 2 * e) * (((t - s : Int) : ℚ) / (interval + 1 : Int)) ≤
      ((t - s : Int) : ℚ) / interval := by
    rw [mul_div_assoc', div_le_div_iff₀ hI' hI]
    have herror := hfine.error_le
    push_cast at hspan ⊢
    nlinarith
  have hmissing : burst - lib.tokens l t ≤ (1 + 2 * e) * lacking (interval + 1) z s t + e := by
    have habs := (abs_le.mp (abs_missing_le hlib h.made ht)).2
    have hmax : max ((burst : ℚ) - lib.tokens l s - ((t - s : Int) : ℚ) / interval) 0 ≤
        (1 + 2 * e) * lacking (interval + 1) z s t := by
      unfold lacking
      rw [mul_max_of_nonneg _ _ (by linarith), mul_zero]
      refine max_le_max_right 0 ?_
      rw [mul_sub]
      linarith [h.bound]
    linarith
  have hallow : (lib.allow l t).1 = true := by
    refine hlib.grants hmade ?_
    have hhalf : (1 : ℚ) / (2 * interval) * interval = 1 / 2 := by field_simp
    have hb : (1 : ℚ) ≤ burst := by exact_mod_cast hfine.room
    have hsmall := hfine.small
    -- The errors on all tokens are less than half a nanosecond.
    have herrors : 2 * e * (burst - 1) + e ≤ 1 / (2 * interval) := by
      rw [le_div_iff₀ (by linarith)]
      nlinarith [mul_nonneg he hI.le]
    nlinarith
  refine ⟨hallow, hmade.allow, by linarith, ?_⟩
  have htakes := (abs_le.mp (hlib.takes hmade hallow)).1
  linarith

/-- **A poorer bucket allows no more than an exact one would, with a shorter interval.** -/
theorem Poorer.ask (hlib : TokenBucket lib interval burst e) (hfine : Fine interval burst e)
    (h : Poorer lib interval burst e z s l) (ht : s ≤ t) (hallow : (lib.allow l t).1 = true) :
    lacking (interval - 1) z s t + 1 ≤ burst + 2 / (interval - 1 : Int) ∧
      Poorer lib interval burst e (lacking (interval - 1) z s t + 1) t (lib.allow l t).2 := by
  have hI : (1 : ℚ) < interval := by exact_mod_cast hfine.long
  have hI' : (0 : ℚ) < (interval - 1 : Int) := by push_cast; linarith
  have hspan : (0 : ℚ) ≤ ((t - s : Int) : ℚ) := by exact_mod_cast sub_nonneg.mpr ht
  have he := hfine.nonneg
  have hb : (1 : ℚ) ≤ burst := by exact_mod_cast hfine.room
  have hsmall := hfine.small
  have herror := hfine.error_le
  have htwo : (2 : ℚ) ≤ interval := by exact_mod_cast hfine.long
  have hhalf : 2 * e ≤ 1 / 2 := by nlinarith
  have hz : 0 ≤ lacking (interval - 1) z s t := lacking_nonneg
  have hmade := h.made.later ht
  -- A nanosecond less in every interval costs more than the error.
  have hfaster : ((t - s : Int) : ℚ) / interval ≤
      (1 - 2 * e) * (((t - s : Int) : ℚ) / (interval - 1 : Int)) := by
    rw [mul_div_assoc', div_le_div_iff₀ (by linarith) hI']
    push_cast at hspan ⊢
    nlinarith
  have hmissing : (1 - 2 * e) * lacking (interval - 1) z s t - e ≤ burst - lib.tokens l t := by
    have habs := (abs_le.mp (abs_missing_le hlib h.made ht)).1
    have hmax : (1 - 2 * e) * lacking (interval - 1) z s t ≤
        max ((burst : ℚ) - lib.tokens l s - ((t - s : Int) : ℚ) / interval) 0 := by
      unfold lacking
      rw [mul_max_of_nonneg _ _ (by linarith), mul_zero]
      refine max_le_max_right 0 ?_
      rw [mul_sub]
      linarith [h.bound]
    linarith
  refine ⟨?_, hmade.allow, by linarith, ?_⟩
  · have hneeds := hlib.needs hmade hallow
    have hinterval : (1 : ℚ) / interval * interval = 1 := by field_simp
    have hshorter : (2 : ℚ) / (interval - 1 : Int) * (interval - 1 : Int) = 2 := by field_simp
    have hwaits : (1 : ℚ) / interval + 2 * e * burst ≤ (1 - 2 * e) * (2 / (interval - 1 : Int)) := by
      rw [mul_div_assoc', div_add' _ _ _ (by linarith), div_le_div_iff₀ (by linarith) hI']
      push_cast
      nlinarith
    nlinarith
  · have htakes := (abs_le.mp (hlib.takes hmade hallow)).2
    linarith

end Library

/-! ## Exact limiters -/

variable {interval : Duration} {burst : Int} {now : Time}

/-- How an exact limiter stands at the time it has last been asked. -/
structure Limiter.Stands (interval : Duration) (burst : Int) (now : Time) (lim : Limiter) : Prop where
  every : lim.Every interval
  burst_eq : lim.burst = burst
  past : lim.last ≤ now ∨ lim.tokens = lim.burst

theorem stands_of_made (hI : 0 < interval) {lim : exact.Limiter}
    (h : Library.Made exact interval burst now lim) : Limiter.Stands interval burst now lim := by
  induction h with
  | new now => exact ⟨.new, rfl, .inr rfl⟩
  | later h ht ih => exact ⟨ih.every, ih.burst_eq, ih.past.imp_left fun hlast => hlast.trans ht⟩
  | @allow now l h ih =>
    cases hallow : (Limiter.allow l now).1 with
    | false =>
      show Limiter.Stands interval burst now (Limiter.allow l now).2
      rw [Limiter.Every.allow_refused hallow]
      exact ih
    | true =>
      refine ⟨ih.every.allow hI, ?_, ?_⟩
      · show (Limiter.allow l now).2.burst = burst
        rw [ih.every.allow_snd hI hallow]
        exact ih.burst_eq
      · show (Limiter.allow l now).2.last ≤ now ∨ _
        rw [ih.every.allow_snd hI hallow]
        exact .inl le_rfl

/-- The tokens at a later time, from those at this one. -/
theorem Limiter.Stands.advance_later {lim : Limiter} {t : Time} (hI : 0 < interval)
    (h : lim.Stands interval burst now) (ht : now ≤ t) :
    lim.advance t = min (lim.advance now + ((t - now : Int) : ℚ) / interval) burst := by
  have hpos : (0 : ℚ) < interval := by exact_mod_cast hI
  have hspan : (0 : ℚ) ≤ ((t - now : Int) : ℚ) / interval :=
    div_nonneg (by exact_mod_cast sub_nonneg.mpr ht) hpos.le
  rcases h.past with hlast | hfull
  · rw [h.every.advance hI hlast, h.every.advance hI (hlast.trans ht), h.burst_eq, ← min_add_add_right,
      min_assoc, min_eq_right (by linarith : (burst : ℚ) ≤ burst + _)]
    congr 1
    push_cast
    ring
  · rw [Limiter.advance_of_full hfull, Limiter.advance_of_full hfull, h.burst_eq,
      min_eq_right (by linarith)]

/-- **Exact limiters are token buckets**, whatever error is allowed for. -/
theorem exact_tokenBucket (hI : 0 < interval) (hb : 1 ≤ burst) {e : ℚ} (he : 0 ≤ e) :
    Library.TokenBucket exact interval burst e := by
  have hpos : (0 : ℚ) < interval := by exact_mod_cast hI
  have hone : ∀ {now lim}, Library.Made exact interval burst now lim →
      ((Limiter.allow lim now).1 = true ↔ 1 ≤ Limiter.advance lim now) := by
    intro now lim h
    have hstands := stands_of_made hI h
    exact hstands.every.allow_fst hI (by rw [hstands.burst_eq]; exact hb)
  refine ⟨fun t => Limiter.advance_of_full rfl, fun {now l} h => ?_, fun {now t l} h ht => ?_,
    fun {now l} h hallow => ?_, fun _ hallow => Limiter.Every.allow_refused hallow,
    fun {now l} h hle => (hone h).mpr ?_, fun {now l} h hallow => ?_⟩
  · rw [← (stands_of_made hI h).burst_eq]
    exact min_le_right _ _
  · show |Limiter.advance l t - min (Limiter.advance l now + _) _| ≤ e
    rw [(stands_of_made hI h).advance_later hI ht, sub_self, abs_zero]
    exact he
  · have hstands := stands_of_made hI h
    have hafter : Limiter.advance (Limiter.allow l now).2 now = Limiter.advance l now - 1 := by
      rw [(hstands.every.allow hI).advance hI, hstands.every.allow_snd hI hallow]
      · show min (Limiter.advance l now - 1 + ((now - now : Int) : ℚ) / interval) _ = _
        rw [sub_self, Int.cast_zero, zero_div, add_zero, min_eq_left]
        have hcap : Limiter.advance l now ≤ Limiter.burst l := min_le_right _ _
        linarith
      · rw [hstands.every.allow_snd hI hallow]
    show |Limiter.advance (Limiter.allow l now).2 now - (Limiter.advance l now - 1)| ≤ e
    rw [hafter, sub_self, abs_zero]
    exact he
  · -- Tokens come in whole nanoseconds, and half a one is missing at most.
    obtain ⟨z, hz⟩ := (stands_of_made hI h).every.whole_advance hI now
    have hle : 1 - 1 / (2 * (interval : ℚ)) ≤ Limiter.advance l now := hle
    have hhalf : (1 : ℚ) / (2 * interval) * interval = 1 / 2 := by field_simp
    have hlt : (interval : ℚ) - 1 < z := by
      rw [← hz]
      nlinarith
    have hwhole : interval ≤ z := by
      have hlt : interval - 1 < z := by exact_mod_cast hlt
      exact Int.sub_one_lt_iff.mp hlt
    have hwhole : (interval : ℚ) ≤ z := by exact_mod_cast hwhole
    rw [← hz] at hwhole
    exact le_of_mul_le_mul_right (by linarith) hpos
  · have hle := (hone h).mp hallow
    have hnano : (0 : ℚ) ≤ 1 / interval := by positivity
    show _ ≤ Limiter.advance l now
    linarith

end Rate
