import ExpenseSaas.Middleware.Buckets

/-!
# Retry-After

What `respond429` tells a request that has been refused, and what becomes of the
client that waits so long. The header is `window / limit` in whole seconds, rounded
down, and the bucket needs `window / limit` nanoseconds for a token, so a bucket
that has just been emptied is too slow for the header as soon as this is more than
a second and no whole number of them (`retryAfterSuffices_iff`).

There may be several buckets of a key, as old ones are forgotten, and none of them
has been asked since the refusal (`Stocked`).
-/

namespace ExpenseSaas

namespace Middleware

open Rate (Time Duration Limiter)

/--
`retryAfter`: `int(window.Seconds() / float64(limit))` in exact arithmetic, and 1 at
least. The quotient of the source is rounded to a `float64` first, which makes no
difference for windows of less than about 190 days.
-/
def retryAfter (limit : Int) (window : Duration) : Int :=
  let retryAfter := ⌊Rate.seconds window / limit⌋
  if retryAfter < 1 then 1 else retryAfter

/-- The request whose step this is. -/
def LimitStep.request? {K : Type} : LimitStep K → Option (LimitedRequest K)
  | .get r _ => some r
  | .tokens r _ => some r
  | .allow r _ => some r
  | .evict .. => none

/-- The step asks for a token. -/
def LimitStep.asks {K : Type} : LimitStep K → Bool
  | .allow .. => true
  | _ => false

/-- The state after some steps. -/
def Limiting.after {lib : Rate.Library} {K : Type} [DecidableEq K] (s : Limiting lib K)
    (steps : List (LimitStep K)) : Limiting lib K := steps.foldl (fun s e => (s.step e).1) s

/--
After the refusal of `r` at `t`, and what happens `later`, the next request with its
key is `r'`, at the time `t'` that `r` was told. It has been given its bucket and not
yet asked it for a token.
-/
structure Waits (limit : Int) (window : Duration) (r : LimitedRequest String) (t : Time)
    (later : List (LimitStep String)) (r' : LimitedRequest String) (t' : Time) : Prop where
  key : r'.key = r.key
  time : t' = t + retryAfter limit window * Rate.second
  given : ∃ now, .get r' now ∈ later
  alone : ∀ e ∈ later, ∀ q, e.request? = some q → q.key = r.key →
    e.time ≤ t ∨ (q = r' ∧ e.asks = false)

/-- **Whoever waits as long as a refusal says is admitted**, after every history. -/
def RetryAfterSuffices (limit : Int) (window : Duration) : Prop :=
  ∀ (before later : List (LimitStep String)) (r r' : LimitedRequest String) (t t' : Time),
    ((before ++ LimitStep.allow r t :: later ++ [LimitStep.allow r' t']).map LimitStep.time).Pairwise (· ≤ ·) →
    (((Limiting.new Rate.exact limit window).after before).step (.allow r t)).2 = some (.allowed r false) →
    Waits limit window r t later r' t' →
    (((Limiting.new Rate.exact limit window).after (before ++ .allow r t :: later)).step (.allow r' t')).2 =
      some (.allowed r' true)

variable {limit : Int} {window : Duration}

/-! ## The header -/

/-- In terms of the time the bucket needs for a token. -/
theorem retryAfter_eq (hl : 0 < limit) :
    retryAfter limit window = max 1 (window / limit / Rate.second) := by
  have hfloor : ⌊Rate.seconds window / limit⌋ = window / limit / Rate.second := by
    unfold Rate.seconds
    rw [div_right_comm, Int.floor_div_cast_of_nonneg (by decide), Int.floor_div_cast_of_nonneg hl.le,
      Int.floor_intCast]
  unfold retryAfter
  simp only [hfloor]
  split <;> omega

/-- The header is long enough for a token. -/
theorem interval_le_retryAfter_iff (hl : 0 < limit) (hw : 0 < window) :
    window / limit ≤ retryAfter limit window * Rate.second ↔
      window / limit ≤ Rate.second ∨ Rate.second ∣ window / limit := by
  have hI : 0 ≤ window / limit := Int.ediv_nonneg hw.le hl.le
  have hwhole : ∀ interval : Int, 0 ≤ interval →
      (interval ≤ max 1 (interval / 1000000000) * 1000000000 ↔
        interval ≤ 1000000000 ∨ 1000000000 ∣ interval) := by
    intro interval hI
    omega
  rw [retryAfter_eq hl]
  exact hwhole (window / limit) hI

/-! ## The buckets of a key -/

section

variable {K : Type} [DecidableEq K] {s s' : Limiting Rate.exact K} {key : K} {asked : Time → Prop}
  {c : Cell Rate.exact} {e : LimitStep K} {steps : List (LimitStep K)} {p : LimitedRequest K} {now : Time}

/-- No bucket of the cell has been asked at other times, and the entry points to one of them. -/
structure Cell.Stocked (limit : Int) (window : Duration) (asked : Time → Prop) (c : Cell Rate.exact) :
    Prop where
  kept : ∀ l ∈ c.limiters, Kept limit window asked l
  entry : ∀ e, c.entry = some e → e.limiter < c.limiters.length

/-- The same under a key. -/
structure Stocked (limit : Int) (window : Duration) (asked : Time → Prop) (key : K)
    (s : Limiting Rate.exact K) : Prop where
  has : s.store.Has limit window
  cell : (s.store.cells key).Stocked limit window asked

/-- The request has been given a bucket. -/
def Given (s : Limiting Rate.exact K) (q : LimitedRequest K) : Prop :=
  ∃ i, s.held q = some i ∧ i < (s.store.cells q.key).limiters.length

omit [DecidableEq K] in
theorem Stocked.new : Stocked limit window asked key (.new Rate.exact limit window) :=
  ⟨has_new, fun l hl => (by cases hl), fun e he => by cases he⟩

omit [DecidableEq K] in
theorem Given.congr (h : Given s p) (hheld : s'.held p = s.held p)
    (hlength : (s.store.cells p.key).limiters.length ≤ (s'.store.cells p.key).limiters.length) :
    Given s' p := by
  obtain ⟨i, hi, hlt⟩ := h
  exact ⟨i, hheld.trans hi, hlt.trans_le hlength⟩

/-- What is handed out is a bucket of the cell, an old one or a new one. -/
theorem Cell.Stocked.get (hl : 0 < limit) (h : c.Stocked limit window asked) :
    (c.get (fresh Rate.exact limit window) now).2.Stocked limit window asked ∧
      (c.get (fresh Rate.exact limit window) now).1 <
        (c.get (fresh Rate.exact limit window) now).2.limiters.length ∧
      c.limiters.length ≤ (c.get (fresh Rate.exact limit window) now).2.limiters.length := by
  unfold Cell.get
  cases he : c.entry with
  | some e =>
    have hlt := h.entry e he
    refine ⟨⟨h.kept, fun f hf => ?_⟩, hlt, le_rfl⟩
    cases hf
    exact hlt
  | none =>
    refine ⟨⟨fun l hmem => ?_, fun f hf => ?_⟩, ?_, ?_⟩
    · rw [List.mem_append, List.mem_singleton] at hmem
      rcases hmem with hmem | rfl
      · exact h.kept l hmem
      · exact .new hl
    · cases hf
      simp
    · simp
    · simp

theorem Cell.Stocked.evict {cutoff : Time} (h : c.Stocked limit window asked) :
    (c.evict cutoff).Stocked limit window asked ∧
      (c.evict cutoff).limiters.length = c.limiters.length := by
  unfold Cell.evict
  split
  · split
    · exact ⟨⟨h.kept, fun f hf => by cases hf⟩, rfl⟩
    · exact ⟨h, rfl⟩
  · exact ⟨h, rfl⟩

theorem Cell.Stocked.allow {i : Nat} {ok : Bool} {c' : Cell Rate.exact} (hl : 0 < limit)
    (h : c.Stocked limit window asked) (hallow : c.allow i now = some (ok, c')) (hasked : asked now) :
    c'.Stocked limit window asked ∧ c'.limiters.length = c.limiters.length := by
  obtain ⟨l, hmem, heq⟩ := Option.map_eq_some_iff.mp hallow
  cases heq
  refine ⟨⟨fun l' hmem' => ?_, fun f hf => ?_⟩, List.length_set⟩
  · rcases List.mem_or_eq_of_mem_set hmem' with hmem' | rfl
    · exact h.kept l' hmem'
    · exact (h.kept l (List.mem_of_getElem? hmem)).allow hl hasked
  · rw [List.length_set]
    exact h.entry f hf

/-- A cell is changed. -/
theorem Stocked.setCell (h : Stocked limit window asked key s) (key' : K) (c : Cell Rate.exact)
    (hcell : (s.store.cells key').Stocked limit window asked → key' = key → c.Stocked limit window asked ∧
      (s.store.cells key').limiters.length ≤ c.limiters.length) :
    Stocked limit window asked key (s.setCell key' c) ∧
      ∀ p, p.key = key → Given s p → Given (s.setCell key' c) p := by
  by_cases hkey : key = key'
  · subst hkey
    obtain ⟨hstocked, hlength⟩ := hcell h.cell rfl
    refine ⟨⟨⟨h.has.limit_eq, h.has.burst_eq, h.has.interval_eq⟩, ?_⟩, fun p hp hgiven => ?_⟩
    · rw [Limiting.cells_setCell]
      exact hstocked
    · refine hgiven.congr rfl ?_
      rw [hp, Limiting.cells_setCell]
      exact hlength
  · refine ⟨⟨⟨h.has.limit_eq, h.has.burst_eq, h.has.interval_eq⟩, ?_⟩, fun p hp hgiven => ?_⟩
    · rw [Limiting.cells_setCell_ne hkey]
      exact h.cell
    · refine hgiven.congr rfl ?_
      rw [hp, Limiting.cells_setCell_ne hkey]

/--
**A step**: the buckets of the key are asked by its own requests, and who holds one,
or is just given it, holds it afterwards.
-/
theorem Stocked.step (hl : 0 < limit) (h : Stocked limit window asked key s)
    (hasks : ∀ q now, e = .allow q now → q.key = key → asked now) :
    Stocked limit window asked key (s.step e).1 ∧
      ∀ p, p.key = key → (Given s p ∨ ∃ now, e = .get p now) → Given (s.step e).1 p := by
  cases e with
  | tokens q now =>
    refine ⟨h, fun p hp hgiven => ?_⟩
    rcases hgiven with hgiven | ⟨_, hget⟩
    · exact hgiven
    · cases hget
  | evict key' started later =>
    -- an eviction takes a bucket out of the map, and its holders keep it
    have hset := h.setCell key' ((s.store.cells key').evict (started - s.store.interval * 2))
      fun hcell _ => ⟨hcell.evict.1, hcell.evict.2.ge⟩
    refine ⟨hset.1, fun p hp hgiven => ?_⟩
    rcases hgiven with hgiven | ⟨_, hget⟩
    · exact hset.2 p hp hgiven
    · cases hget
  | get q now =>
    have hset := h.setCell q.key ((s.store.cells q.key).get (fresh Rate.exact limit window) now).2
      fun hcell _ => ⟨(hcell.get hl).1, (hcell.get hl).2.2⟩
    rw [step_get h.has]
    refine ⟨⟨hset.1.has, hset.1.cell⟩, fun p hp hgiven => ?_⟩
    -- whoever gets now has the bucket the map has just given; the others lose nothing
    by_cases hpq : p = q
    · subst hpq
      refine ⟨_, Limiting.held_hold, ?_⟩
      show _ < ((s.setCell p.key _).store.cells p.key).limiters.length
      rw [Limiting.cells_setCell]
      exact (hp ▸ h.cell.get hl).2.1
    · rcases hgiven with hgiven | ⟨_, hget⟩
      · exact (hset.2 p hp hgiven).congr (Limiting.held_hold_ne hpq) le_rfl
      · cases hget
        exact absurd rfl hpq
  | allow q now =>
    unfold Limiting.step
    dsimp only
    have hgot : ∀ p, (Given s p ∨ ∃ t, LimitStep.allow q now = .get p t) → Given s p := by
      rintro p (hgiven | ⟨_, hget⟩)
      · exact hgiven
      · cases hget
    cases hheld : (s.held q).bind fun i => (s.store.cells q.key).allow i now with
    -- without a bucket there is nothing to ask
    | none => exact ⟨h, fun p _ hgiven => hgot p hgiven⟩
    | some r =>
      obtain ⟨i, _, hallow⟩ := Option.bind_eq_some_iff.mp hheld
      have hset := h.setCell q.key r.2 fun hcell hkey =>
        have hafter := hcell.allow hl hallow (hasks q now rfl hkey)
        ⟨hafter.1, hafter.2.ge⟩
      exact ⟨hset.1, fun p hp hgiven => hset.2 p hp (hgot p hgiven)⟩

theorem Stocked.after (hl : 0 < limit) (h : Stocked limit window asked key s)
    (hasks : ∀ q now, .allow q now ∈ steps → q.key = key → asked now) :
    Stocked limit window asked key (s.after steps) ∧
      ∀ p, p.key = key → (Given s p ∨ ∃ now, .get p now ∈ steps) → Given (s.after steps) p := by
  induction steps generalizing s with
  | nil =>
    refine ⟨h, fun p _ hgiven => ?_⟩
    rcases hgiven with hgiven | ⟨_, hget⟩
    · exact hgiven
    · cases hget
  | cons e steps ih =>
    obtain ⟨hstep, hgivenStep⟩ := h.step hl fun q now he => hasks q now (he ▸ List.mem_cons_self)
    obtain ⟨hafter, hgivenAfter⟩ := ih hstep fun q now hq => hasks q now (List.mem_cons_of_mem e hq)
    refine ⟨hafter, fun p hp hgiven => hgivenAfter p hp ?_⟩
    rcases hgiven with hgiven | ⟨now, hget⟩
    · exact .inl (hgivenStep p hp (.inl hgiven))
    · rcases List.mem_cons.mp hget with he | hget
      · exact .inl (hgivenStep p hp (.inr ⟨now, he.symm⟩))
      · exact .inr ⟨now, hget⟩

/-- **Whoever has been given a bucket is admitted**, when `window / limit` has passed since it was asked. -/
theorem Stocked.admits (hl : 0 < limit) (hw : 0 < window) (h : Stocked limit window asked key s)
    (hp : p.key = key) (hgiven : Given s p) (hasked : ∀ u, asked u → u + window / limit ≤ now) :
    (s.step (.allow p now)).2 = some (.allowed p true) := by
  subst hp
  obtain ⟨i, hi, hlt⟩ := hgiven
  have hallow : (s.store.cells p.key).allow i now = some (true, { s.store.cells p.key with
      limiters := (s.store.cells p.key).limiters.set i
        (Limiter.allow (s.store.cells p.key).limiters[i] now).2 }) := by
    unfold Cell.allow
    rw [List.getElem?_eq_getElem hlt, Option.map_some]
    have hadmits : (Limiter.allow (s.store.cells p.key).limiters[i] now).1 = true :=
      (h.cell.kept _ (List.getElem_mem hlt)).admits hl hw hasked
    show some ((Limiter.allow (s.store.cells p.key).limiters[i] now).1, _) = _
    rw [hadmits]
  simp only [Limiting.step, hi, Option.bind_some, hallow]

end

/-! ## Waiting long enough -/

theorem Limiting.after_append {lib : Rate.Library} {K : Type} [DecidableEq K] (s : Limiting lib K)
    (xs ys : List (LimitStep K)) : s.after (xs ++ ys) = (s.after xs).after ys := List.foldl_append

theorem suffices_of_interval_le (hl : 0 < limit) (hw : 0 < window)
    (hle : window / limit ≤ retryAfter limit window * Rate.second) :
    RetryAfterSuffices limit window := by
  intro before later r r' t t' hsorted _ hwaits
  -- Nobody with the key asks between the refusal and the end of the wait.
  have hasks : ∀ q now, .allow q now ∈ before ++ .allow r t :: later → q.key = r.key → now ≤ t := by
    intro q now hq hkey
    rw [List.map_append, List.map_append, List.append_assoc] at hsorted
    obtain ⟨_, _, hbefore⟩ := List.pairwise_append.mp hsorted
    rcases List.mem_append.mp hq with hq | hq
    · exact hbefore _ (List.mem_map_of_mem hq) t List.mem_cons_self
    · rcases List.mem_cons.mp hq with heq | hq
      · cases heq
        exact le_rfl
      · rcases hwaits.alone _ hq q rfl hkey with hpast | ⟨_, hno⟩
        · exact hpast
        · cases hno
  have hnew : Stocked limit window (· ≤ t) r.key (.new Rate.exact limit window) := .new
  obtain ⟨hstocked, hgivenAfter⟩ := hnew.after hl hasks
  obtain ⟨now, hget⟩ := hwaits.given
  refine hstocked.admits hl hw hwaits.key (hgivenAfter r' hwaits.key (.inr ⟨now, ?_⟩)) fun u hu => ?_
  · exact List.mem_append_right _ (List.mem_cons_of_mem _ hget)
  · rw [hwaits.time]
    linarith

/-! ## A client that sends all its requests at once -/

namespace Sample

/-- The `k`-th request. -/
def burstRequest (k : Nat) : LimitedRequest String := ⟨k, "203.0.113.7"⟩

/-- The first `k` requests. -/
def burst (k : Nat) : List (LimitStep String) :=
  (List.range k).flatMap fun k => [.get (burstRequest k) 0, .allow (burstRequest k) 0]

/-- The last of them, until it asks for a token. -/
def impatient (k : Nat) : List (LimitStep String) := burst k ++ [.get (burstRequest k) 0]

/-- One that waits. -/
def patient (limit : Int) : LimitedRequest String := ⟨limit.toNat + 1, "203.0.113.7"⟩

end Sample

section

variable {K : Type} [DecidableEq K] {s : Limiting Rate.exact K} {key : K} {l : Limiter} {q : LimitedRequest K}

/-- The store has made one bucket for the key, or none yet. -/
structure Sole (limit : Int) (window : Duration) (key : K) (l : Limiter) (s : Limiting Rate.exact K) : Prop where
  has : s.store.Has limit window
  cell : ((s.store.cells key).entry = none ∧ (s.store.cells key).limiters = [] ∧
      l = fresh Rate.exact limit window) ∨
    ∃ e, (s.store.cells key).entry = some e ∧ e.limiter = 0 ∧ (s.store.cells key).limiters = [l]

omit [DecidableEq K] in
theorem Sole.new : Sole limit window key (fresh Rate.exact limit window) (.new Rate.exact limit window) :=
  ⟨has_new, .inl ⟨rfl, rfl, rfl⟩⟩

/-- A request is given the bucket and asks it for a token. -/
theorem Sole.ask (h : Sole limit window key l s) (hq : q.key = key) (given now : Time) :
    ((s.step (.get q given)).1.step (.allow q now)).2 = some (.allowed q (l.allow now).1) ∧
      Sole limit window key (l.allow now).2 ((s.step (.get q given)).1.step (.allow q now)).1 := by
  subst hq
  have hget : ∃ e, (s.store.cells q.key).get (fresh Rate.exact limit window) given = (0, ⟨some e, [l]⟩) ∧
      e.limiter = 0 := by
    unfold Cell.get
    rcases h.cell with ⟨he, hnil, rfl⟩ | ⟨e, he, hzero, hone⟩
    · rw [he, hnil]
      exact ⟨⟨0, given⟩, rfl, rfl⟩
    · rw [he, hone]
      exact ⟨{ e with lastSeen := given }, by rw [← hzero], hzero⟩
  obtain ⟨e, hcell, hzero⟩ := hget
  have hallow : Cell.allow (((s.setCell q.key ⟨some e, [l]⟩).hold q 0).store.cells q.key) 0 now =
      some ((l.allow now).1, ⟨some e, [(l.allow now).2]⟩) := by
    show Cell.allow ((s.setCell q.key ⟨some e, [l]⟩).store.cells q.key) 0 now = _
    rw [Limiting.cells_setCell]
    rfl
  rw [step_get h.has, hcell]
  simp only [Limiting.step, Limiting.held_hold, Option.bind_some, hallow]
  refine ⟨trivial, ⟨h.has.limit_eq, h.has.burst_eq, h.has.interval_eq⟩, .inr ⟨e, ?_⟩⟩
  rw [Limiting.cells_setCell]
  exact ⟨rfl, hzero, rfl⟩

end

/-- The bucket at time 0, with so many tokens. -/
def bucket (limit : Int) (window : Duration) (tokens : Int) : Limiter :=
  ⟨Rate.every (window.tdiv limit), limit, tokens, 0⟩

theorem bucket_every {tokens : Int} : (bucket limit window tokens).Every (window.tdiv limit) :=
  ⟨rfl, tokens * window.tdiv limit, by push_cast; rfl⟩

theorem bucket_allow {k : Nat} (hl : 0 < limit) (hI : 0 < window.tdiv limit) (hk : k < limit) :
    ((bucket limit window (limit - k)).allow 0).1 = true ∧
      ((bucket limit window (limit - k)).allow 0).2 = bucket limit window (limit - (k + 1 : Nat)) := by
  have hadv : (bucket limit window (limit - k)).advance 0 = ((limit - k : Int) : ℚ) := by
    rw [bucket_every.advance (t := 0) hI le_rfl]
    have hcap : ((limit - k : Int) : ℚ) ≤ (limit : ℚ) := by
      have hle : limit - (k : Int) ≤ limit := by omega
      exact_mod_cast hle
    show min (((limit - k : Int) : ℚ) + (((0 : Int) - 0 : Int) : ℚ) / _) (limit : ℚ) = _
    rw [sub_self, Int.cast_zero, zero_div, add_zero, min_eq_left hcap]
  have hone : 1 ≤ (bucket limit window (limit - k)).advance 0 := by
    rw [hadv]
    have hle : 1 ≤ limit - (k : Int) := by omega
    exact_mod_cast hle
  have hallow := (bucket_every.allow_fst hI (show 1 ≤ limit by omega)).mpr hone
  refine ⟨hallow, ?_⟩
  rw [bucket_every.allow_snd hI hallow, hadv]
  unfold bucket
  congr 1
  push_cast
  ring

theorem burst_succ {k : Nat} : Sample.burst (k + 1) =
    Sample.burst k ++ [.get (Sample.burstRequest k) 0, .allow (Sample.burstRequest k) 0] := by
  unfold Sample.burst
  rw [List.range_succ, List.flatMap_append, List.flatMap_singleton]

theorem time_of_burst {k : Nat} : ∀ e ∈ Sample.burst k, e.time = 0 := by
  intro e he
  obtain ⟨j, _, he⟩ := List.mem_flatMap.mp he
  rcases List.mem_cons.mp he with rfl | he
  · rfl
  · rcases List.mem_cons.mp he with rfl | he
    · rfl
    · cases he

/-- Everything happens at once, until the client is back at time `t`. -/
theorem sorted_of_burst {k : Nat} {p : LimitedRequest String} {t : Time} (ht : 0 ≤ t) :
    ((Sample.impatient k ++ LimitStep.allow (Sample.burstRequest k) 0 :: [LimitStep.get p t] ++
      [LimitStep.allow p t]).map LimitStep.time).Pairwise (· ≤ ·) := by
  have hzero : ∀ t ∈ (Sample.impatient k).map LimitStep.time, t = 0 := by
    intro t ht
    obtain ⟨e, he, rfl⟩ := List.mem_map.mp ht
    rcases List.mem_append.mp he with he | he
    · exact time_of_burst e he
    · rw [List.mem_singleton.mp he]
      rfl
  have htail : ∀ u ∈ [0, t, t], 0 ≤ u := by
    intro u hu
    simp only [List.mem_cons, List.not_mem_nil, or_false] at hu
    rcases hu with rfl | rfl | rfl
    · exact le_rfl
    · exact ht
    · exact ht
  have hmap : (Sample.impatient k ++ LimitStep.allow (Sample.burstRequest k) 0 :: [LimitStep.get p t] ++
      [LimitStep.allow p t]).map LimitStep.time = (Sample.impatient k).map LimitStep.time ++ [0, t, t] := by
    rw [List.append_assoc, List.map_append]
    rfl
  rw [hmap]
  refine List.pairwise_append.mpr ⟨?_, ?_, fun u hu v hv => ?_⟩
  · refine List.pairwise_of_forall_mem_list fun t ht u hu => ?_
    rw [hzero t ht, hzero u hu]
  · simp [ht]
  · rw [hzero u hu]
    exact htail v hv

/-- Every request takes a token. -/
theorem sole_of_burst (hl : 0 < limit) (hI : 0 < window.tdiv limit) {k : Nat} (hk : k ≤ limit) :
    Sole limit window "203.0.113.7" (bucket limit window (limit - k))
      ((Limiting.new Rate.exact limit window).after (Sample.burst k)) := by
  induction k with
  | zero =>
    have hfresh : fresh Rate.exact limit window = bucket limit window (limit - (0 : Nat)) := by
      show Rate.newLimiter (Rate.every (window.tdiv limit)) limit = _
      unfold bucket Rate.newLimiter
      congr 1
      push_cast
      ring
    rw [← hfresh]
    exact .new
  | succ k ih =>
    have hallow := ((ih (by omega)).ask (q := Sample.burstRequest k) rfl 0 0).2
    rw [(bucket_allow hl hI (by omega)).2] at hallow
    rw [burst_succ, Limiting.after_append]
    exact hallow

/-- What an empty bucket needs. -/
theorem le_of_bucket_allow {t : Time} (hl : 0 < limit) (hI : 0 < window.tdiv limit) (ht : 0 ≤ t)
    (hallow : ((bucket limit window 0).allow t).1 = true) : window.tdiv limit ≤ t := by
  have hpos : (0 : ℚ) < (window.tdiv limit : Int) := by exact_mod_cast hI
  have hone := (bucket_every.allow_fst hI (show 1 ≤ limit by omega)).mp hallow
  rw [bucket_every.advance (t := t) hI ht] at hone
  have hgain : (1 : ℚ) ≤ ((0 : Int) : ℚ) + ((t - 0 : Int) : ℚ) / (window.tdiv limit : Int) :=
    hone.trans (min_le_left _ _)
  rw [Int.cast_zero, zero_add, sub_zero, le_div_iff₀ hpos, one_mul] at hgain
  exact_mod_cast hgain

/-- **A bucket that is slower than the header refuses the client again.** -/
theorem not_suffices_of_lt (hl : 0 < limit) (hw : 0 < window)
    (hlt : retryAfter limit window * Rate.second < window / limit) :
    ¬ RetryAfterSuffices limit window := by
  intro h
  have hwait : 0 ≤ retryAfter limit window * Rate.second := by
    rw [retryAfter_eq hl]
    exact mul_nonneg (le_max_of_le_left (by decide)) (by decide)
  have hI : 0 < window.tdiv limit := by
    rw [Int.tdiv_eq_ediv_of_nonneg hw.le]
    exact lt_of_le_of_lt hwait hlt
  obtain ⟨n, hn⟩ : ∃ n : Nat, limit = n := ⟨limit.toNat, (Int.toNat_of_nonneg hl.le).symm⟩
  -- The bucket is empty when the last request comes.
  have hempty := sole_of_burst hl hI (le_of_eq hn.symm)
  rw [← hn, sub_self] at hempty
  obtain ⟨htold, hsole⟩ := hempty.ask (q := Sample.burstRequest n) rfl 0 0
  have hno : ((bucket limit window 0).allow 0).1 = false := by
    rw [Bool.eq_false_iff]
    intro hallow
    exact absurd (le_of_bucket_allow hl hI le_rfl hallow) (not_le.mpr hI)
  rw [hno] at htold
  rw [Limiter.Every.allow_refused hno] at hsole
  -- And the one that waits comes too early.
  obtain ⟨htold', _⟩ := hsole.ask (q := Sample.patient limit) rfl (retryAfter limit window * Rate.second)
    (retryAfter limit window * Rate.second)
  have hadmitted := h (Sample.impatient n) [.get (Sample.patient limit) (retryAfter limit window * Rate.second)]
    (Sample.burstRequest n) (Sample.patient limit) 0 (retryAfter limit window * Rate.second)
    (sorted_of_burst hwait) ?_ ?_
  · unfold Sample.impatient at hadmitted
    rw [Limiting.after_append, Limiting.after_append] at hadmitted
    have hsame := htold'.symm.trans hadmitted
    injection hsame with hsame
    injection hsame with _ hallow
    have hle := le_of_bucket_allow hl hI hwait hallow
    rw [Int.tdiv_eq_ediv_of_nonneg hw.le] at hle
    exact absurd hlt (not_lt.mpr hle)
  · unfold Sample.impatient
    rw [Limiting.after_append]
    exact htold
  · refine ⟨rfl, (zero_add _).symm, ⟨_, List.mem_singleton_self _⟩, fun e he q hq _ => ?_⟩
    cases List.mem_singleton.mp he
    cases hq
    exact .inr ⟨rfl, rfl⟩

/--
**A refused client that waits as long as it was told is admitted**, whatever has
happened before, if and only if a token takes no more than a second or a whole
number of seconds.
-/
theorem retryAfterSuffices_iff (limit : Int) (window : Duration) (hl : 0 < limit) (hw : 0 < window) :
    RetryAfterSuffices limit window ↔
      window / limit ≤ Rate.second ∨ Rate.second ∣ window / limit := by
  rw [← interval_le_retryAfter_iff hl hw]
  constructor
  · intro h
    by_contra hlt
    exact not_suffices_of_lt hl hw (not_le.mp hlt) h
  · exact suffices_of_interval_le hl hw

/-- 20 requests a minute: a token takes three seconds. -/
theorem retryAfterSuffices_of_twenty : RetryAfterSuffices 20 (60 * Rate.second) ↔
    60 * Rate.second / 20 ≤ Rate.second ∨ Rate.second ∣ 60 * Rate.second / 20 :=
  retryAfterSuffices_iff 20 (60 * Rate.second) (by decide) (by decide)

/-- 40 requests a minute: a token takes a second and a half, and a refusal says one second. -/
theorem not_suffices_of_forty : ¬ RetryAfterSuffices 40 (60 * Rate.second) := by
  have hheader : retryAfter 40 (60 * Rate.second) = 1 := by
    rw [retryAfter_eq (by decide)]
    decide
  refine not_suffices_of_lt (by decide) (by decide) ?_
  rw [hheader]
  decide

end Middleware

end ExpenseSaas
