import ExpenseSaas.Middleware.Buckets

/-!
# Cleanup is not observed

A store that forgets keys is compared with one that keeps them all (`Alike`).
Where the first has forgotten a key, the bucket of the second has been idle for a
window and is full (`Kept.full`), so that a new bucket answers as it does. What a
store goes by is when a request was given its bucket, two windows before at least;
that it is asked for a token no more than a window later (`InTime`) is left to the
requests. One that dawdles takes its token from a bucket that is forgotten, or is
about to be (`observed_of_dawdling`).
-/

namespace ExpenseSaas

namespace Middleware

open Rate (Time Duration Limiter)

/--
Whenever a cleanup comes to a key more than two windows after a request was given
its limiter, the request has asked that a window ago or earlier.
-/
def InTime {K : Type} (window : Duration) (steps : List (LimitStep K)) : Prop :=
  ∀ (q : LimitedRequest K) (given asked started : Time) (later : Nat),
    .get q given ∈ steps → .tokens q asked ∈ steps ∨ .allow q asked ∈ steps →
    .evict q.key started later ∈ steps → started ≤ given + window * 2 ∨ asked + window ≤ started + later

/-- The request has still to ask its limiter. -/
def Asks {K : Type} (q : LimitedRequest K) (rest : List (LimitStep K)) : Prop :=
  ∃ asked, .tokens q asked ∈ rest ∨ .allow q asked ∈ rest

/-- When the limiter of a key may have been asked that was last handed out at `seen`. -/
def AskedBy {K : Type} (steps : List (LimitStep K)) (key : K) (seen asked : Time) : Prop :=
  ∃ q given, q.key = key ∧ .get q given ∈ steps ∧ .allow q asked ∈ steps ∧ given ≤ seen

section

variable {limit : Int} {window : Duration} {l l' : Limiter} {now t : Time}

/-- From `now` on, the buckets cannot be told apart. -/
structure Same (now : Time) (l l' : Limiter) : Prop where
  limit : l.limit = l'.limit
  burst : l.burst = l'.burst
  advance : ∀ t, now ≤ t → l.advance t = l'.advance t

theorem Same.refl : Same now l l := ⟨rfl, rfl, fun _ _ => rfl⟩

theorem Same.later (h : Same now l l') (ht : now ≤ t) : Same t l l' :=
  ⟨h.limit, h.burst, fun u hu => h.advance u (ht.trans hu)⟩

theorem Same.waitDuration (h : Same now l l') (ht : now ≤ t) :
    l.waitDuration t = l'.waitDuration t := by
  unfold Limiter.waitDuration
  rw [h.advance t ht, h.limit]

/-- Buckets that cannot be told apart decide alike, and cannot be told apart afterwards. -/
theorem Same.allow (h : Same now l l') (ht : now ≤ t) :
    (l.allow t).1 = (l'.allow t).1 ∧ Same now (l.allow t).2 (l'.allow t).2 := by
  unfold Limiter.allow
  rw [h.limit, h.burst, h.waitDuration ht]
  by_cases hinf : l'.limit = Rate.inf
  · rw [if_pos hinf, if_pos hinf]
    exact ⟨rfl, h⟩
  · rw [if_neg hinf, if_neg hinf]
    by_cases hok : 1 ≤ l'.burst ∧ l'.waitDuration t ≤ 0
    · rw [if_pos hok, if_pos hok, h.advance t ht]
      exact ⟨rfl, .refl⟩
    · rw [if_neg hok, if_neg hok]
      exact ⟨rfl, h⟩

end

/-! ## The two stores -/

section

variable {limit : Int} {window : Duration} {now t : Time} {c c' : Cell Rate.exact}
  {asked : Time → Time → Prop}

/-- What is under a key in the two stores. -/
inductive AlikeCell (limit : Int) (window : Duration) (asked : Time → Time → Prop) (now : Time)
    (c c' : Cell Rate.exact) : Prop where
  | unseen (entry : c.entry = none) (entry' : c'.entry = none)
  | seen {e e' : LimiterEntry} {l l' : Limiter} (entry : c.entry = some e)
      (entry' : c'.entry = some e') (limiter : c.limiters[e.limiter]? = some l)
      (limiter' : c'.limiters[e'.limiter]? = some l') (lastSeen : e.lastSeen = e'.lastSeen)
      (past : e'.lastSeen ≤ now) (same : Same now l l') (kept : Kept limit window (asked e'.lastSeen) l')
  /-- Forgotten by the first, and full in the second. -/
  | forgotten {e' : LimiterEntry} {l' : Limiter} (entry : c.entry = none)
      (entry' : c'.entry = some e') (limiter' : c'.limiters[e'.limiter]? = some l')
      (past : e'.lastSeen ≤ now) (full : Full now l') (kept : Kept limit window (asked e'.lastSeen) l')

theorem AlikeCell.later (h : AlikeCell limit window asked now c c') (ht : now ≤ t) :
    AlikeCell limit window asked t c c' := by
  cases h with
  | unseen he he' => exact .unseen he he'
  | seen he he' hl hl' hlast hpast hsame hkept =>
    exact .seen he he' hl hl' hlast (hpast.trans ht) (hsame.later ht) hkept
  | forgotten he he' hl' hpast hfull hkept =>
    exact .forgotten he he' hl' (hpast.trans ht) (hfull.later ht) hkept

theorem AlikeCell.past {e' : LimiterEntry} (h : AlikeCell limit window asked now c c')
    (he : c'.entry = some e') : e'.lastSeen ≤ now := by
  cases h with
  | unseen hnone hnone' => cases hnone'.symm.trans he
  | seen h₁ h₁' hl hl' hlast hpast hsame hkept =>
    cases h₁'.symm.trans he
    exact hpast
  | forgotten h₁ h₁' hl' hpast hfull hkept =>
    cases h₁'.symm.trans he
    exact hpast

/-- **Both stores hand out buckets that cannot be told apart.** -/
theorem AlikeCell.get (hl : 0 < limit) (hasked : ∀ u v w, u ≤ v → asked u w → asked v w)
    (h : AlikeCell limit window asked now c c') :
    AlikeCell limit window asked now (c.get (fresh Rate.exact limit window) now).2
      (c'.get (fresh Rate.exact limit window) now).2 ∧
    ∃ e e', (c.get (fresh Rate.exact limit window) now).2.entry = some e ∧
      (c'.get (fresh Rate.exact limit window) now).2.entry = some e' ∧
      e.limiter = (c.get (fresh Rate.exact limit window) now).1 ∧
      e'.limiter = (c'.get (fresh Rate.exact limit window) now).1 ∧ e'.lastSeen = now := by
  cases h with
  | unseen he he' =>
    unfold Cell.get
    rw [he, he']
    refine ⟨.seen rfl rfl List.getElem?_concat_length List.getElem?_concat_length rfl le_rfl .refl
      (Kept.new hl), _, _, rfl, rfl, rfl, rfl, rfl⟩
  | seen he he' hl₁ hl₁' hlast hpast hsame hkept =>
    unfold Cell.get
    rw [he, he']
    have hkept := hkept.mono fun u hu => hasked _ now u hpast hu
    exact ⟨.seen rfl rfl hl₁ hl₁' rfl le_rfl hsame hkept, _, _, rfl, rfl, rfl, rfl, rfl⟩
  | @forgotten e' l' he he' hl' hpast hfull hkept =>
    unfold Cell.get
    rw [he, he']
    have hsame : Same now (fresh Rate.exact limit window) l' := by
      refine ⟨hkept.params.1.symm, hkept.params.2.symm, fun t ht => ?_⟩
      rw [hfull t ht, hkept.params.2]
      exact full_of_tokens rfl t ht
    have hkept := hkept.mono fun u hu => hasked _ now u hpast hu
    exact ⟨.seen rfl rfl List.getElem?_concat_length hl' rfl le_rfl hsame hkept,
      _, _, rfl, rfl, rfl, rfl, rfl⟩

/-- **Both stores take a token, or neither.** -/
theorem AlikeCell.allow {e e' : LimiterEntry} (hl : 0 < limit)
    (h : AlikeCell limit window asked now c c') (he : c.entry = some e) (he' : c'.entry = some e')
    (hasked : asked e'.lastSeen now) :
    ∃ ok d d', c.allow e.limiter now = some (ok, d) ∧ c'.allow e'.limiter now = some (ok, d') ∧
      d.entry = c.entry ∧ d'.entry = c'.entry ∧ AlikeCell limit window asked now d d' := by
  cases h with
  | unseen hnone => cases hnone.symm.trans he
  | forgotten hnone => cases hnone.symm.trans he
  | @seen e₁ e₁' l l' h₁ h₁' hl₁ hl₁' hseen hpast hsame hkept =>
    cases h₁.symm.trans he
    cases h₁'.symm.trans he'
    obtain ⟨hok, hafter⟩ := hsame.allow (le_refl now)
    refine ⟨(l.allow now).1, { c with limiters := c.limiters.set e.limiter (l.allow now).2 },
      { c' with limiters := c'.limiters.set e'.limiter (l'.allow now).2 }, ?_, ?_, rfl, rfl,
      .seen h₁ h₁' ?_ ?_ hseen hpast hafter (hkept.allow hl hasked)⟩
    · unfold Cell.allow
      rw [hl₁]
      rfl
    · unfold Cell.allow
      rw [hl₁', hok]
      rfl
    · exact List.getElem?_set_self (List.getElem?_eq_some_iff.mp hl₁).1
    · exact List.getElem?_set_self (List.getElem?_eq_some_iff.mp hl₁').1

/-- **What is forgotten is full in the other store.** -/
theorem AlikeCell.evict {cutoff : Time} (hl : 0 < limit) (hw : 0 < window)
    (hasked : ∀ u v, u < cutoff → asked u v → v + window ≤ now)
    (h : AlikeCell limit window asked now c c') : AlikeCell limit window asked now (c.evict cutoff) c' ∧
      ((c.evict cutoff).entry = c.entry ∨
        ∃ e', c'.entry = some e' ∧ e'.lastSeen < cutoff ∧ (c.evict cutoff).entry = none) := by
  unfold Cell.evict
  cases h with
  | unseen he he' =>
    rw [he]
    exact ⟨.unseen he he', .inl he⟩
  | forgotten he he' hl' hpast hfull hkept =>
    rw [he]
    exact ⟨.forgotten he he' hl' hpast hfull hkept, .inl he⟩
  | @seen e e' l l' he he' hl₁ hl₁' hlast hpast hsame hkept =>
    rw [he]
    by_cases hold : e.lastSeen < cutoff
    · have hfull := hkept.full hl hw fun u hu => hasked _ u (hlast ▸ hold) hu
      refine ⟨?_, .inr ⟨e', he', hlast ▸ hold, ?_⟩⟩ <;> simp only [if_pos hold]
      exact .forgotten rfl he' hl₁' hpast hfull hkept
    · simp only [if_neg hold]
      exact ⟨.seen he he' hl₁ hl₁' hlast hpast hsame hkept, .inl he⟩

end

variable {K : Type} {limit : Int} {window : Duration} {now t : Time} {s r : Limiting Rate.exact K}
  {all rest : List (LimitStep K)} {c c' : Cell Rate.exact} {q : LimitedRequest K} {e : LimitStep K}

theorem AskedBy.mono {key : K} (u v w : Time) (h : u ≤ v) (hasked : AskedBy all key u w) :
    AskedBy all key v w := by
  obtain ⟨q, given, hkey, hget, hallow, hle⟩ := hasked
  exact ⟨q, given, hkey, hget, hallow, hle.trans h⟩

/-- What a request holds that is still to ask: the bucket of the entry, or nothing. -/
def AlikeHeld (all : List (LimitStep K)) (c c' : Cell Rate.exact) (q : LimitedRequest K)
    (i i' : Option Nat) : Prop :=
  i = none ∧ i' = none ∨ ∃ e e', c.entry = some e ∧ c'.entry = some e' ∧
    i = some e.limiter ∧ i' = some e'.limiter ∧ ∃ given, .get q given ∈ all ∧ given ≤ e'.lastSeen

/-- **The relation**: `s` forgets, and `r` keeps everything. -/
structure Alike (limit : Int) (window : Duration) (all rest : List (LimitStep K)) (now : Time)
    (s r : Limiting Rate.exact K) : Prop where
  has : s.store.Has limit window
  has' : r.store.Has limit window
  cells : ∀ key, AlikeCell limit window (AskedBy all key) now (s.store.cells key) (r.store.cells key)
  held : ∀ q, Asks q rest → AlikeHeld all (s.store.cells q.key) (r.store.cells q.key) q
    (s.held q) (r.held q)

theorem Asks.cons (h : Asks q rest) : Asks q (e :: rest) := by
  obtain ⟨asked, h⟩ := h
  exact ⟨asked, h.imp (List.mem_cons_of_mem e) (List.mem_cons_of_mem e)⟩

theorem Alike.later (h : Alike limit window all rest now s r) (ht : now ≤ t) :
    Alike limit window all rest t s r :=
  ⟨h.has, h.has', fun key => (h.cells key).later ht, h.held⟩

theorem Alike.drop (h : Alike limit window all (e :: rest) now s r) :
    Alike limit window all rest now s r :=
  ⟨h.has, h.has', h.cells, fun q hq => h.held q hq.cons⟩

theorem Alike.new : Alike limit window all rest now (.new Rate.exact limit window) (.new Rate.exact limit window) :=
  ⟨has_new, has_new, fun _ => .unseen rfl rfl, fun _ _ => .inl ⟨rfl, rfl⟩⟩

variable [DecidableEq K]

/-- Changing what is under one key. -/
theorem Alike.setCell (h : Alike limit window all rest now s r) {key : K}
    (hcell : AlikeCell limit window (AskedBy all key) now c c')
    (hheld : ∀ q : LimitedRequest K, q.key = key → Asks q rest →
      AlikeHeld all c c' q (s.held q) (r.held q)) :
    Alike limit window all rest now (s.setCell key c) (r.setCell key c') := by
  refine ⟨⟨h.has.limit_eq, h.has.burst_eq, h.has.interval_eq⟩,
    ⟨h.has'.limit_eq, h.has'.burst_eq, h.has'.interval_eq⟩, fun key' => ?_, fun q hq => ?_⟩
  · by_cases hkey : key' = key
    · subst hkey
      rw [Limiting.cells_setCell, Limiting.cells_setCell]
      exact hcell
    · rw [Limiting.cells_setCell_ne hkey, Limiting.cells_setCell_ne hkey]
      exact h.cells key'
  · by_cases hkey : q.key = key
    · subst hkey
      rw [Limiting.cells_setCell, Limiting.cells_setCell]
      exact hheld q rfl hq
    · rw [Limiting.cells_setCell_ne hkey, Limiting.cells_setCell_ne hkey]
      exact h.held q hq

theorem alike_get (hl : 0 < limit) (hget : .get q now ∈ all) (h : Alike limit window all rest now s r) :
    Alike limit window all rest now (s.step (.get q now)).1 (r.step (.get q now)).1 := by
  obtain ⟨hcell, e, e', he, he', hi, hi', hlast⟩ := (h.cells q.key).get hl AskedBy.mono
  rw [step_get h.has, step_get h.has']
  -- Who holds the bucket of this key already goes on holding the one the entry points to.
  have hothers : ∀ p : LimitedRequest K, p.key = q.key → Asks p rest →
      AlikeHeld all ((s.store.cells q.key).get (fresh Rate.exact limit window) now).2
        ((r.store.cells q.key).get (fresh Rate.exact limit window) now).2 p (s.held p) (r.held p) := by
    intro p hp hasks
    rcases h.held p hasks with hnone | ⟨f, f', hf, hf', hs, hr, given, hgiven, hle⟩
    · exact .inl hnone
    · rw [hp] at hf hf'
      have hpast := (h.cells q.key).past hf'
      unfold Cell.get
      rw [hf, hf']
      exact .inr ⟨{ f with lastSeen := now }, { f' with lastSeen := now }, rfl, rfl, hs, hr, given,
        hgiven, hle.trans hpast⟩
  have hset := h.setCell hcell hothers
  refine ⟨⟨hset.has.limit_eq, hset.has.burst_eq, hset.has.interval_eq⟩,
    ⟨hset.has'.limit_eq, hset.has'.burst_eq, hset.has'.interval_eq⟩, hset.cells, fun p hp => ?_⟩
  by_cases hpq : p = q
  · subst hpq
    refine .inr ⟨e, e', ?_, ?_, ?_, ?_, now, hget, hlast.ge⟩
    · exact (congrArg Cell.entry Limiting.cells_setCell).trans he
    · exact (congrArg Cell.entry Limiting.cells_setCell).trans he'
    · rw [Limiting.held_hold, hi]
    · rw [Limiting.held_hold, hi']
  · rw [Limiting.held_hold_ne hpq, Limiting.held_hold_ne hpq]
    exact hset.held p hp

theorem alike_tokens (hasks : Asks q rest) (h : Alike limit window all rest now s r) :
    (s.step (.tokens q now)).2 = (r.step (.tokens q now)).2 := by
  simp only [Limiting.step, Limiting.limiterOf]
  rcases h.held q hasks with ⟨hs, hr⟩ | ⟨e, e', he, he', hs, hr, _⟩
  · rw [hs, hr]
    rfl
  · cases h.cells q.key with
    | unseen hnone => cases hnone.symm.trans he
    | forgotten hnone => cases hnone.symm.trans he
    | seen h₁ h₁' hl₁ hl₁' hseen hpast hsame hkept =>
      cases h₁.symm.trans he
      cases h₁'.symm.trans he'
      simp only [hs, hr, Option.bind_some, hl₁, hl₁', Option.map_some, remaining,
        hsame.advance now le_rfl]

theorem alike_allow (hl : 0 < limit) (hallow : .allow q now ∈ all) (hasks : Asks q rest)
    (h : Alike limit window all rest now s r) :
    Alike limit window all rest now (s.step (.allow q now)).1 (r.step (.allow q now)).1 ∧
      (s.step (.allow q now)).2 = (r.step (.allow q now)).2 := by
  simp only [Limiting.step]
  rcases h.held q hasks with ⟨hs, hr⟩ | ⟨e, e', he, he', hs, hr, given, hget, hle⟩
  · rw [hs, hr]
    exact ⟨h, rfl⟩
  · obtain ⟨ok, d, d', hd, hd', hentry, hentry', hcell⟩ :=
      (h.cells q.key).allow hl he he' ⟨q, given, rfl, hget, hallow, hle⟩
    simp only [hs, hr, Option.bind_some, hd, hd']
    refine ⟨h.setCell hcell fun p hp hasks => ?_, trivial⟩
    unfold AlikeHeld
    rw [hentry, hentry']
    exact hp ▸ h.held p hasks

theorem alike_evict (hl : 0 < limit) (hw : 0 < window) (hall : InTime window all) {key : K} {started : Time}
    {later : Nat} (hevict : .evict key started later ∈ all)
    (hrest : ∀ f ∈ rest, f ∈ all ∧ started + later ≤ f.time)
    (h : Alike limit window all rest (started + later) s r) :
    Alike limit window all rest (started + later) (s.step (.evict key started later)).1 r := by
  have hasked : ∀ u v, u < started - window * 2 → AskedBy all key u v → v + window ≤ started + later := by
    rintro u v hu ⟨q, given, rfl, hget, hallow, hle⟩
    rcases hall q given v started later hget (.inr hallow) hevict with hearly | hpast
    · linarith
    · exact hpast
  obtain ⟨hcell, hentry⟩ := (h.cells key).evict hl hw hasked
  have hr : r = r.setCell key (r.store.cells key) := by
    unfold Limiting.setCell
    rw [Function.update_eq_self]
  simp only [Limiting.step]
  rw [h.has.interval_eq, hr]
  refine h.setCell hcell fun p hp hasks => ?_
  rcases h.held p hasks with hnone | ⟨e, e', he, he', hs, hheld, given, hget, hle⟩
  · exact .inl hnone
  · rw [hp] at he he'
    rcases hentry with hsame | ⟨f', hf', hidle, _⟩
    · exact .inr ⟨e, e', hsame.trans he, he', hs, hheld, given, hget, hle⟩
    · -- A request that is still to ask was not given its bucket so long ago.
      cases hf'.symm.trans he'
      subst hp
      obtain ⟨v, hv⟩ := hasks
      have htime : started + later ≤ v := hv.elim (fun h => (hrest _ h).2) fun h => (hrest _ h).2
      have hmem : .tokens p v ∈ all ∨ .allow p v ∈ all :=
        hv.imp (fun h => (hrest _ h).1) fun h => (hrest _ h).1
      rcases hall p given v started later hget hmem hevict with hearly | hpast
      · linarith
      · linarith

/-- A step of both, or a removal from the first. -/
theorem alike_step (hl : 0 < limit) (hw : 0 < window) (hall : InTime window all) (he : e ∈ all)
    (hrest : ∀ f ∈ rest, f ∈ all ∧ e.time ≤ f.time) (ht : now ≤ e.time)
    (h : Alike limit window all (e :: rest) now s r) :
    Alike limit window all rest e.time (s.step e).1 (if e.keeps then (r.step e).1 else r) ∧
      (s.step e).2 = if e.keeps then (r.step e).2 else none := by
  have h := h.later ht
  cases e with
  | get q now => exact ⟨(alike_get hl he h.drop), rfl⟩
  | tokens q now => exact ⟨h.drop, alike_tokens ⟨now, .inl List.mem_cons_self⟩ h⟩
  | allow q now =>
    obtain ⟨halike, htold⟩ := alike_allow hl he ⟨now, .inr List.mem_cons_self⟩ h
    exact ⟨halike.drop, htold⟩
  | evict key started later => exact ⟨alike_evict hl hw hall he hrest h.drop, rfl⟩

theorem alike_run (hl : 0 < limit) (hw : 0 < window) (hall : InTime window all)
    (hrest : ∀ f ∈ rest, f ∈ all ∧ now ≤ f.time) (hsorted : (rest.map LimitStep.time).Pairwise (· ≤ ·))
    (h : Alike limit window all rest now s r) : s.run rest = r.run (rest.filter LimitStep.keeps) := by
  induction rest generalizing now s r with
  | nil => rfl
  | cons e rest ih =>
    obtain ⟨hfirst, hsorted⟩ := List.pairwise_cons.mp hsorted
    obtain ⟨he, ht⟩ := hrest e List.mem_cons_self
    have hrest : ∀ f ∈ rest, f ∈ all ∧ e.time ≤ f.time := fun f hf =>
      ⟨(hrest f (List.mem_cons_of_mem e hf)).1, hfirst _ (List.mem_map_of_mem hf)⟩
    obtain ⟨hnext, htold⟩ := alike_step hl hw hall he hrest ht h
    rw [Limiting.run_cons, ih hrest hsorted hnext, htold]
    by_cases hk : e.keeps = true
    · rw [List.filter_cons_of_pos hk, if_pos hk, if_pos hk, Limiting.run_cons]
    · rw [List.filter_cons_of_neg hk, if_neg hk, if_neg hk]
      rfl

/--
**Cleanup is not observed.** Whatever the limit and the window, the remaining counts
and the decisions of a store that is cleaned up at any times are those of a store that
never removes an entry, as long as every request asks the limiter it was given in time.
-/
theorem cleanup_unobserved (limit : Int) (window : Duration) (hl : 0 < limit) (hw : 0 < window)
    (steps : List (LimitStep K)) (hsorted : (steps.map LimitStep.time).Pairwise (· ≤ ·))
    (hasked : InTime window steps) :
    (Limiting.new Rate.exact limit window).run steps =
      (Limiting.new Rate.exact limit window).run (steps.filter LimitStep.keeps) := by
  cases steps with
  | nil => rfl
  | cons e steps =>
    have hnew : Alike limit window (e :: steps) (e :: steps) e.time (.new Rate.exact limit window)
        (.new Rate.exact limit window) := .new
    refine alike_run hl hw hasked (fun f hf => ⟨hf, ?_⟩) hsorted hnew
    rcases List.mem_cons.mp hf with rfl | hf
    · exact le_rfl
    · exact (List.pairwise_cons.mp hsorted).1 _ (List.mem_map_of_mem hf)

/-! ## Requests that take their time -/

/-- A request asks within a window of being given its limiter. -/
def LimitStep.prompt (window : Duration) : LimitStep K → LimitStep K → Bool
  | .get q given, .tokens p asked
  | .get q given, .allow p asked => p ≠ q || asked ≤ given + window
  | _, _ => true

/-- Such requests are in time for every cleanup. -/
theorem inTime_of_prompt {steps : List (LimitStep K)}
    (h : ∀ g ∈ steps, ∀ a ∈ steps, LimitStep.prompt window g a = true) : InTime window steps := by
  intro q given asked started later hget hasks _
  have hprompt : asked ≤ given + window := by
    rcases hasks with hasks | hasks
    · simpa [LimitStep.prompt] using h _ hget _ hasks
    · simpa [LimitStep.prompt] using h _ hget _ hasks
  have hlater : (0 : Int) ≤ later := Int.natCast_nonneg later
  by_cases hearly : started ≤ given + window * 2
  · exact .inl hearly
  · exact .inr (by linarith)

namespace Sample

/-- The first two requests to come for a key, and the third, which is for another. -/
def first : LimitedRequest String := ⟨0, "203.0.113.7"⟩

def second : LimitedRequest String := ⟨1, "203.0.113.7"⟩

def third : LimitedRequest String := ⟨2, "203.0.113.9"⟩

/-- While the first request dawdles its key is forgotten, and the second is given a new bucket. -/
def dawdling : List (LimitStep String) :=
  [.get first 0, .evict "203.0.113.7" 21 0, .get second 22, .allow second 22, .allow first 23]

/-- The first request asks 2 ns after a window has passed, and its key is forgotten before it has its token back. -/
def late : List (LimitStep String) :=
  [.get first 0, .allow first 12, .evict "203.0.113.7" 21 0, .get second 21, .allow second 21]

/-- Three requests of two keys, the last of each after the key has been forgotten. -/
def idle : List (LimitStep String) :=
  [.get first 0, .get third 2, .tokens first 3, .allow third 5, .allow first 8,
    .evict "203.0.113.7" 21 1, .evict "203.0.113.9" 21 2, .get second 24, .tokens second 25,
    .evict "203.0.113.9" 26 0, .allow second 27, .get ⟨3, "203.0.113.9"⟩ 30, .allow ⟨3, "203.0.113.9"⟩ 31]

end Sample

/--
**A bucket that is asked when it has been forgotten.** The window is 10 ns, for one
request. The store that forgets lets both requests through, with a bucket for each;
the other lets only one.
-/
theorem observed_of_dawdling :
    (Sample.dawdling.map LimitStep.time).Pairwise (· ≤ ·) ∧
    (Limiting.new Rate.exact 1 10).run Sample.dawdling =
      [.allowed Sample.second true, .allowed Sample.first true] ∧
    (Limiting.new Rate.exact 1 10).run (Sample.dawdling.filter LimitStep.keeps) =
      [.allowed Sample.second true, .allowed Sample.first false] ∧
    (Sample.late.map LimitStep.time).Pairwise (· ≤ ·) ∧
    (Limiting.new Rate.exact 1 10).run Sample.late ≠
      (Limiting.new Rate.exact 1 10).run (Sample.late.filter LimitStep.keeps) := by
  decide +kernel

/-- Two keys are forgotten between their requests, one of them twice, and nobody notices. -/
theorem cleanup_unobserved_of_idle :
    (Limiting.new Rate.exact 1 10).run Sample.idle =
      (Limiting.new Rate.exact 1 10).run (Sample.idle.filter LimitStep.keeps) :=
  cleanup_unobserved 1 10 (by decide) (by decide) _ (by decide) (inTime_of_prompt (by decide))

end Middleware

end ExpenseSaas
