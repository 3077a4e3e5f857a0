import ExpenseSaas.Middleware.RateLimit

/-!
# The limiters of a store

What is known of a limiter that a store has made, computing exactly, by the times at
which it may have been asked for a token (`Kept`): it has never less than nothing in
it, so that it has a token again after `window / limit`, and all of them after a
window, which is worth `limit` intervals at least.
-/

namespace ExpenseSaas

namespace Middleware

open Rate (Time Duration Limiter)

variable {limit : Int} {window : Duration} {l : Limiter} {now t : Time} {asked asked' : Time → Prop}

/-- From `now` on, the bucket is full whenever it is asked. -/
def Full (now : Time) (l : Limiter) : Prop := ∀ t, now ≤ t → l.advance t = l.burst

/-- A bucket of the store that has given tokens at no other times than those it was asked at. -/
inductive Kept (limit : Int) (window : Duration) (asked : Time → Prop) (l : Limiter) : Prop where
  | fills (hI : 0 < window.tdiv limit) (every : l.Every (window.tdiv limit))
      (burst : l.burst = limit) (nonneg : 0 ≤ l.tokens)
      (since : l.tokens = l.burst ∨ asked l.last)
  /-- The interval is rounded down to nothing, and there is no limit. -/
  | unlimited (hI : window.tdiv limit ≤ 0) (eq : l = Rate.newLimiter Rate.inf limit)

/-- A bucket with all its tokens is full. -/
theorem full_of_tokens (h : l.tokens = l.burst) : Full now l := by
  intro t _
  exact Limiter.advance_of_full h

theorem Full.later (h : Full now l) (ht : now ≤ t) : Full t l := fun u hu => h u (ht.trans hu)

theorem Kept.mono (h : Kept limit window asked l) (hasked : ∀ u, asked u → asked' u) :
    Kept limit window asked' l := by
  cases h with
  | unlimited hI heq => exact .unlimited hI heq
  | fills hI hevery hburst hnonneg hsince =>
    exact .fills hI hevery hburst hnonneg (hsince.imp_right (hasked l.last))

theorem Kept.new (hl : 0 < limit) : Kept limit window asked (fresh Rate.exact limit window) := by
  by_cases hI : 0 < window.tdiv limit
  · refine .fills hI .new rfl ?_ (.inl rfl)
    show (0 : ℚ) ≤ (limit : ℚ)
    exact_mod_cast hl.le
  · refine .unlimited (not_lt.mp hI) ?_
    show Rate.newLimiter (Rate.every _) limit = _
    unfold Rate.every
    rw [if_pos (not_lt.mp hI)]

/-- The buckets of a store have its limit. -/
theorem Kept.params (h : Kept limit window asked l) :
    l.limit = Rate.every (window.tdiv limit) ∧ l.burst = limit := by
  cases h with
  | fills hI hevery hburst hnonneg hsince => exact ⟨hevery.limit, hburst⟩
  | unlimited hI heq =>
    subst heq
    refine ⟨?_, rfl⟩
    unfold Rate.every
    rw [if_pos hI]
    rfl

/-- Asking for a token. -/
theorem Kept.allow (hl : 0 < limit) (h : Kept limit window asked l) (ht : asked t) :
    Kept limit window asked (l.allow t).2 := by
  cases h with
  | unlimited hI heq =>
    subst heq
    have hinf : (Rate.newLimiter Rate.inf limit).limit = Rate.inf := rfl
    refine .unlimited hI ?_
    unfold Limiter.allow
    rw [if_pos hinf]
  | fills hI hevery hburst hnonneg hsince =>
    cases hallow : (l.allow t).1 with
    | false =>
      rw [Limiter.Every.allow_refused hallow]
      exact .fills hI hevery hburst hnonneg hsince
    | true =>
      have hone := (hevery.allow_fst hI (by omega)).mp hallow
      refine .fills hI (hevery.allow hI) ?_ ?_ ?_ <;> rw [hevery.allow_snd hI hallow]
      · exact hburst
      · exact sub_nonneg.mpr hone
      · exact .inr ht

/-- **A bucket fills within a window.** -/
theorem Kept.full (hl : 0 < limit) (hw : 0 < window) (h : Kept limit window asked l)
    (hasked : ∀ u, asked u → u + window ≤ now) : Full now l := by
  cases h with
  | unlimited hI heq =>
    subst heq
    exact full_of_tokens rfl
  | fills hI hevery hburst hnonneg hsince =>
    rcases hsince with hfull | hlast
    · exact full_of_tokens hfull
    · intro t ht
      have hpast := hasked l.last hlast
      have hlt : l.last ≤ t := by linarith
      -- The whole window has passed, and it is worth `limit` intervals at least.
      have hspan : window.tdiv limit * limit ≤ t - l.last := by
        rw [Int.tdiv_eq_ediv_of_nonneg hw.le]
        have hdiv := Int.ediv_mul_le window hl.ne'
        linarith
      have hpos : (0 : ℚ) < (window.tdiv limit : Int) := by exact_mod_cast hI
      have hgain : (limit : ℚ) ≤ ((t - l.last : Int) : ℚ) / (window.tdiv limit : Int) := by
        rw [le_div_iff₀ hpos]
        have hcast : ((window.tdiv limit * limit : Int) : ℚ) ≤ ((t - l.last : Int) : ℚ) := by
          exact_mod_cast hspan
        push_cast at hcast ⊢
        linarith
      rw [hevery.advance hI hlt, hburst, min_eq_right]
      linarith

/-- **A bucket has a token again after `window / limit`.** -/
theorem Kept.admits (hl : 0 < limit) (hw : 0 < window) (h : Kept limit window asked l)
    (hasked : ∀ u, asked u → u + window / limit ≤ t) : (l.allow t).1 = true := by
  cases h with
  | unlimited hI heq =>
    subst heq
    have hinf : (Rate.newLimiter Rate.inf limit).limit = Rate.inf := rfl
    unfold Limiter.allow
    rw [if_pos hinf]
  | fills hI hevery hburst hnonneg hsince =>
    have hone : (1 : ℚ) ≤ l.burst := by
      rw [hburst]
      exact_mod_cast hl
    refine (hevery.allow_fst hI (by omega)).mpr ?_
    rcases hsince with hfull | hlast
    · rw [Limiter.advance_of_full hfull]
      exact hone
    · have hpast := hasked l.last hlast
      rw [Int.tdiv_eq_ediv_of_nonneg hw.le] at hI hevery
      have hlt : l.last ≤ t := by linarith
      have hpos : (0 : ℚ) < (window / limit : Int) := by exact_mod_cast hI
      have hgain : (1 : ℚ) ≤ ((t - l.last : Int) : ℚ) / (window / limit : Int) := by
        rw [le_div_iff₀ hpos, one_mul]
        have hspan : window / limit ≤ t - l.last := by linarith
        exact_mod_cast hspan
      rw [hevery.advance hI hlt]
      exact le_min (by linarith) hone

end Middleware

end ExpenseSaas
