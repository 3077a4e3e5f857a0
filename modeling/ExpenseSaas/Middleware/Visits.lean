import ExpenseSaas.Middleware.RateLimit

/-!
# One limiter, one client

What a limiter with cleanup does with requests that go through its steps one after
the other and all have one key. If their times leave room for a rounding error it
grants them all (`grants_of_conforms`), and if it does they leave no more than that
to be desired (`conforms_of_grants`). Each visit keeps a bound on what is missing in
the bucket of the key; a bucket that is forgotten has been idle for two windows, in
which everything comes back.
-/

namespace ExpenseSaas

namespace Middleware

open Rate (Time Duration Library)
open Rate.Library (Richer Poorer TokenBucket Fine Made lacking)

/-- A visit to the limiter: a request, or a cleanup that comes to a key. -/
inductive Visit where
  | request (q : LimitedRequest String) (now : Time)
  | cleanup (key : String) (started : Time) (later : Nat)

def Visit.time : Visit → Time
  | .request _ now => now
  | .cleanup _ started later => started + later

/-- The request of a visit, if it is one, and its time. -/
def Visit.request? : Visit → Option (LimitedRequest String)
  | .request q _ => some q
  | .cleanup .. => none

def Visit.asked? : Visit → Option Time
  | .request _ now => some now
  | .cleanup .. => none

variable {lib : Library}

/-- What a limiter does with a request, and whether it answers 429. -/
def Limiting.limits (s : Limiting lib String) (q : LimitedRequest String) (now : Time) :
    Bool × Limiting lib String :=
  let s := (s.step (.get q now)).1
  let s := (s.step (.tokens q now)).1
  let r := s.step (.allow q now)
  (r.2 = some (.allowed q false), r.1)

/-- What a visit changes, and whether it is answered 429. -/
def Limiting.visit (s : Limiting lib String) : Visit → Bool × Limiting lib String
  | .request q now => s.limits q now
  | .cleanup key started later => (false, (s.step (.evict key started later)).1)

/-- No visit is answered 429. -/
def Limiting.Grants (s : Limiting lib String) : List Visit → Prop
  | [] => True
  | v :: vs => (s.visit v).1 = false ∧ Limiting.Grants (s.visit v).2 vs

theorem grants_request {s : Limiting lib String} {q : LimitedRequest String} {now : Time} {vs : List Visit} :
    s.Grants (.request q now :: vs) ↔ (s.limits q now).1 = false ∧ (s.limits q now).2.Grants vs :=
  Iff.rfl

theorem grants_cleanup {s : Limiting lib String} {key : String} {started : Time} {later : Nat}
    {vs : List Visit} : s.Grants (.cleanup key started later :: vs) ↔
      (s.step (.evict key started later)).1.Grants vs :=
  and_iff_right rfl

section

variable {s : Limiting lib String} {key : String} {limit : Int} {window : Duration} {l : lib.Limiter}
  {q : LimitedRequest String}

/-- The next request under the key is counted by `l`. -/
def Counts (s : Limiting lib String) (key : String) (l : lib.Limiter) : Prop :=
  match (s.store.cells key).entry with
  | none => l = lib.newLimiter s.store.limit s.store.burst
  | some e => (s.store.cells key).limiters[e.limiter]? = some l

/-- The key has been seen at a time, and `l` counts for it. -/
def SeenAt (s : Limiting lib String) (key : String) (seen : Time) (l : lib.Limiter) : Prop :=
  ∃ e, (s.store.cells key).entry = some e ∧ e.lastSeen = seen ∧
    (s.store.cells key).limiters[e.limiter]? = some l

/-- **A request is counted by the limiter of its key.** -/
theorem limits_of_counts (h : s.store.Has limit window) (hcounts : Counts s q.key l) (now : Time) :
    (s.limits q now).1 = !(lib.allow l now).1 ∧ (s.limits q now).2.store.Has limit window ∧
      SeenAt (s.limits q now).2 q.key now (lib.allow l now).2 := by
  -- What the request is given is `l`, whether or not it has to be made.
  have hget : ∃ i c, (s.store.cells q.key).get (fresh lib limit window) now = (i, c) ∧
      c.limiters[i]? = some l ∧ c.entry = some ⟨i, now⟩ := by
    unfold Counts at hcounts
    unfold Cell.get
    cases he : (s.store.cells q.key).entry with
    | none =>
      rw [he] at hcounts
      refine ⟨_, _, rfl, ?_, rfl⟩
      rw [hcounts, h.limit_eq, h.burst_eq]
      exact List.getElem?_concat_length
    | some e =>
      rw [he] at hcounts
      exact ⟨_, _, rfl, hcounts, rfl⟩
  obtain ⟨i, c, hcell, hl, he⟩ := hget
  have hgranted : Cell.allow (((s.setCell q.key c).hold q i).store.cells q.key) i now =
      some ((lib.allow l now).1, { c with limiters := c.limiters.set i (lib.allow l now).2 }) := by
    show Cell.allow ((s.setCell q.key c).store.cells q.key) i now = _
    rw [Limiting.cells_setCell]
    unfold Cell.allow
    rw [hl]
    rfl
  have hallow : (s.step (.get q now)).1.step (.allow q now) =
      (((s.setCell q.key c).hold q i).setCell q.key
        { c with limiters := c.limiters.set i (lib.allow l now).2 },
        some (.allowed q (lib.allow l now).1)) := by
    rw [step_get h, hcell]
    simp only [Limiting.step, Limiting.held_hold, Option.bind_some, hgranted]
  have htold := congrArg Prod.snd hallow
  have hafter : (s.limits q now).2 = _ := congrArg Prod.fst hallow
  refine ⟨?_, ?_, ⟨i, now⟩, ?_⟩
  · rw [Bool.eq_iff_iff]
    refine decide_eq_true_iff.trans ?_
    show ((s.step (.get q now)).1.step (.allow q now)).2 = _ ↔ _
    rw [htold]
    cases (lib.allow l now).1 <;> simp
  · rw [hafter]
    exact ⟨h.limit_eq, h.burst_eq, h.interval_eq⟩
  · rw [hafter, Limiting.cells_setCell]
    exact ⟨he, rfl, List.getElem?_set_self (List.getElem?_eq_some_iff.mp hl).1⟩

theorem SeenAt.counts {seen : Time} (h : SeenAt s key seen l) : Counts s key l := by
  obtain ⟨e, he, _, hl⟩ := h
  unfold Counts
  rw [he]
  exact hl

theorem SeenAt.congr {s' : Limiting lib String} {seen : Time} (h : SeenAt s key seen l)
    (hcell : s'.store.cells key = s.store.cells key) : SeenAt s' key seen l := by
  unfold SeenAt
  rw [hcell]
  exact h

theorem counts_of_none (h : s.store.Has limit window) (he : (s.store.cells key).entry = none) :
    Counts s key (fresh lib limit window) := by
  unfold Counts
  rw [he, h.limit_eq, h.burst_eq]

/-- A cleanup leaves the key alone, or finds it long unseen and forgets it. -/
theorem cell_of_cleanup (h : s.store.Has limit window) (key key' : String) (started : Time) (later : Nat) :
    (s.step (.evict key' started later)).1.store.cells key = s.store.cells key ∨
      ((s.step (.evict key' started later)).1.store.cells key).entry = none ∧
        ∃ e, (s.store.cells key).entry = some e ∧ e.lastSeen < started - window * 2 := by
  show ((s.setCell key' _).store.cells key) = _ ∨ ((s.setCell key' _).store.cells key).entry = none ∧ _
  by_cases hkey : key = key'
  · subst hkey
    rw [Limiting.cells_setCell, h.interval_eq]
    unfold Cell.evict
    split
    · rename_i e he
      split
      · rename_i hold
        exact .inr ⟨rfl, e, he, hold⟩
      · exact .inl rfl
    · exact .inl rfl
  · rw [Limiting.cells_setCell_ne hkey]
    exact .inl rfl

end

/-! ## Enough room -/

section

variable {interval : Duration} {limit : Int} {window : Duration} {e z : ℚ} {since now : Time}
  {s : Limiting lib String} {key : String} {vs : List Visit}

/-- The bucket of the key has no less than it should, since it was last asked. -/
inductive RichCell (limit : Int) (window : Duration) (e z : ℚ) (since : Time) (key : String)
    (s : Limiting lib String) : Prop where
  | unseen (entry : (s.store.cells key).entry = none)
  | seen {seen : Time} {l : lib.Limiter} (at' : SeenAt s key seen l)
      (richer : Richer lib (window.tdiv limit) limit e z since l)

theorem RichCell.bucket (hlib : TokenBucket lib (window.tdiv limit) limit e) (he : 0 ≤ e) (hz : 0 ≤ z)
    (h : s.store.Has limit window) (hcell : RichCell limit window e z since key s) :
    ∃ l, Counts s key l ∧ Richer lib (window.tdiv limit) limit e z since l := by
  cases hcell with
  | unseen hnone => exact ⟨_, counts_of_none h hnone, .new hlib he hz⟩
  | seen hseen hricher => exact ⟨_, hseen.counts, hricher⟩

theorem RichCell.cleanup (h : s.store.Has limit window) (hcell : RichCell limit window e z since key s)
    (key' : String) (started : Time) (later : Nat) :
    RichCell limit window e z since key (s.step (.evict key' started later)).1 := by
  rcases cell_of_cleanup h key key' started later with hsame | ⟨hnone, _⟩
  · cases hcell with
    | unseen hnone => exact .unseen (hsame ▸ hnone)
    | seen hseen hricher => exact .seen (hseen.congr hsame) hricher
  · exact .unseen hnone

/-- What is left of what there may be, after some time. -/
theorem min_eq_sub_lacking {interval : Duration} {x : ℚ} {t : Time} :
    min (x - z + ((t - since : Int) : ℚ) / interval) x = x - lacking interval z since t := by
  unfold lacking
  rcases le_total (z - ((t - since : Int) : ℚ) / interval) 0 with hle | hle
  · rw [max_eq_right hle, min_eq_right (by linarith), sub_zero]
  · rw [max_eq_left hle, min_eq_left (by linarith)]
    ring

/-- Requests that conform leave no more to be desired from an earlier time on. -/
theorem atMost_of_conforms (hfine : Fine (window.tdiv limit) limit e) (hpast : ∀ v ∈ vs, since ≤ v.time)
    (hconforms : Rate.Conforms (window.tdiv limit + 1) limit (vs.filterMap Visit.asked?)) :
    Rate.AtMost (window.tdiv limit + 1) limit since (vs.filterMap Visit.asked?) := by
  have hpos : (0 : ℚ) < (window.tdiv limit + 1 : Int) := by exact_mod_cast (by linarith [hfine.long])
  cases hts : vs.filterMap Visit.asked? with
  | nil =>
    intro j t ht
    cases ht
  | cons t ts =>
    rw [hts] at hconforms
    obtain ⟨v, hv, hasked⟩ := List.mem_filterMap.mp (hts ▸ List.mem_cons_self : t ∈ vs.filterMap Visit.asked?)
    have hvisit : v.time = t := by
      cases v with
      | request q now => exact Option.some.inj hasked
      | cleanup key' started later => cases hasked
    have hspan : (0 : ℚ) ≤ ((t - since : Int) : ℚ) / (window.tdiv limit + 1 : Int) :=
      div_nonneg (by exact_mod_cast sub_nonneg.mpr (hvisit ▸ hpast v hv)) hpos.le
    exact hconforms.1.since (by linarith)

/-- Requests that conform to a slower bucket are granted. -/
theorem grants_of_atMost (hlib : TokenBucket lib (window.tdiv limit) limit e)
    (hfine : Fine (window.tdiv limit) limit e) (hz : 0 ≤ z) (h : s.store.Has limit window)
    (hcell : RichCell limit window e z since key s) (hsorted : (vs.map Visit.time).Pairwise (· ≤ ·))
    (hsince : ∀ v ∈ vs, since ≤ v.time) (hkey : ∀ v ∈ vs, ∀ q ∈ v.request?, q.key = key)
    (hmost : Rate.AtMost (window.tdiv limit + 1) (limit - z) since (vs.filterMap Visit.asked?))
    (hconforms : Rate.Conforms (window.tdiv limit + 1) limit (vs.filterMap Visit.asked?)) : s.Grants vs := by
  induction vs generalizing s z since with
  | nil => trivial
  | cons v vs ih =>
    obtain ⟨hfirst, hsorted'⟩ := List.pairwise_cons.mp hsorted
    have hafter : ∀ f ∈ vs, v.time ≤ f.time := fun f hf => hfirst _ (List.mem_map_of_mem hf)
    have hkey' : ∀ f ∈ vs, ∀ q ∈ f.request?, q.key = key := fun f hf => hkey f (List.mem_cons_of_mem v hf)
    cases v with
    | cleanup key' started later =>
      refine ⟨rfl, ih hz (h.step _) (hcell.cleanup h key' started later) hsorted' (fun f hf => ?_) hkey' hmost hconforms⟩
      exact hsince f (List.mem_cons_of_mem _ hf)
    | request q now =>
      obtain rfl : q.key = key := hkey _ List.mem_cons_self q rfl
      obtain ⟨l, hcounts, hricher⟩ := hcell.bucket hlib hfine.nonneg hz h
      obtain ⟨hanswer, hhas, hseen⟩ := limits_of_counts h hcounts now
      have hpast : since ≤ now := hsince _ List.mem_cons_self
      obtain ⟨hroom, hrest⟩ := Rate.atMost_next hmost hconforms.1
      rw [min_eq_sub_lacking] at hroom hrest
      obtain ⟨hallow, hricher'⟩ := hricher.ask hlib hfine hpast (by linarith)
      refine ⟨?_, ih hricher'.nonneg hhas (.seen hseen hricher') hsorted' hafter hkey' ?_ hconforms.2⟩
      · show (s.limits q now).1 = false
        rw [hanswer, hallow]
        rfl
      · rwa [sub_sub] at hrest

/-- **A limiter grants requests that conform to a slower one.** -/
theorem grants_of_conforms (hlib : TokenBucket lib (window.tdiv limit) limit e)
    (hfine : Fine (window.tdiv limit) limit e) (hsorted : (vs.map Visit.time).Pairwise (· ≤ ·))
    (hkey : ∀ v ∈ vs, ∀ q ∈ v.request?, q.key = key)
    (hconforms : Rate.Conforms (window.tdiv limit + 1) limit (vs.filterMap Visit.asked?)) :
    (Limiting.new lib limit window).Grants vs := by
  cases vs with
  | nil => trivial
  | cons v vs =>
    have hpast : ∀ f ∈ v :: vs, v.time ≤ f.time :=
      List.forall_mem_cons.mpr ⟨le_rfl, fun f hf => (List.pairwise_cons.mp hsorted).1 _ (List.mem_map_of_mem hf)⟩
    refine grants_of_atMost hlib hfine le_rfl has_new (.unseen rfl) hsorted hpast hkey ?_ hconforms
    rw [sub_zero]
    exact atMost_of_conforms hfine hpast hconforms

end

/-! ## Not too much of it -/

section

variable {limit : Int} {window : Duration} {e z : ℚ} {since : Time} {s : Limiting lib String} {key : String}
  {vs : List Visit}

/-- What a bucket may be overdrawn by: two nanoseconds' worth. -/
def slack (interval : Duration) : ℚ := 2 / (interval - 1 : Int)

/-- The bucket of the key has no more than it should, since it was last asked. -/
inductive PoorCell (limit : Int) (window : Duration) (e : ℚ) (key : String) (s : Limiting lib String) :
    ℚ → Time → Prop where
  | unseen {since : Time} (entry : (s.store.cells key).entry = none) : PoorCell limit window e key s 0 since
  | seen {z : ℚ} {since seen : Time} {l : lib.Limiter} (at' : SeenAt s key seen l) (past : z = 0 ∨ since ≤ seen)
      (poorer : Poorer lib (window.tdiv limit) limit e z since l) (bound : z ≤ limit + slack (window.tdiv limit)) :
      PoorCell limit window e key s z since

theorem PoorCell.bucket (hlib : TokenBucket lib (window.tdiv limit) limit e)
    (h : s.store.Has limit window) (hcell : PoorCell limit window e key s z since) :
    ∃ l, Counts s key l ∧ Poorer lib (window.tdiv limit) limit e z since l := by
  cases hcell with
  | unseen hnone => exact ⟨_, counts_of_none h hnone, .new hlib⟩
  | seen hseen _ hpoorer _ => exact ⟨_, hseen.counts, hpoorer⟩

/-- In two windows everything comes back. -/
theorem bound_le_two_windows (hfine : Fine (window.tdiv limit) limit e) (hw : 0 ≤ window) :
    (limit + slack (window.tdiv limit) : ℚ) ≤ ((window * 2 : Int) : ℚ) / (window.tdiv limit - 1 : Int) := by
  have hI := hfine.long
  have hb := hfine.room
  have hwindow : limit * window.tdiv limit ≤ window := by
    rw [Int.tdiv_eq_ediv_of_nonneg hw, mul_comm]
    exact Int.ediv_mul_le window (by omega)
  have hpos : (0 : ℚ) < (window.tdiv limit - 1 : Int) := by exact_mod_cast sub_pos.mpr hI
  unfold slack
  rw [le_div_iff₀ hpos, add_mul, div_mul_cancel₀ _ hpos.ne']
  have hle : limit * (window.tdiv limit - 1) + 2 ≤ window * 2 := by nlinarith
  exact_mod_cast hle

/-- A cleanup leaves the bucket alone, or forgets it when everything has come back. -/
theorem PoorCell.cleanup (hfine : Fine (window.tdiv limit) limit e) (hw : 0 ≤ window)
    (h : s.store.Has limit window) (hcell : PoorCell limit window e key s z since) (key' : String)
    {started : Time} {later : Nat} (hpast : since ≤ started + later) :
    PoorCell limit window e key (s.step (.evict key' started later)).1 z since ∨
      PoorCell limit window e key (s.step (.evict key' started later)).1 0 (started + later) ∧
        z ≤ ((started + later - since : Int) : ℚ) / (window.tdiv limit - 1 : Int) := by
  have hpos : (0 : ℚ) < (window.tdiv limit - 1 : Int) := by exact_mod_cast sub_pos.mpr hfine.long
  have hspan : (0 : ℚ) ≤ ((started + later - since : Int) : ℚ) / (window.tdiv limit - 1 : Int) :=
    div_nonneg (by exact_mod_cast sub_nonneg.mpr hpast) hpos.le
  rcases cell_of_cleanup h key key' started later with hsame | ⟨hnone, f, hf, hold⟩
  · left
    cases hcell with
    | unseen hunseen => exact .unseen (hsame ▸ hunseen)
    | seen hseen hsince hpoorer hbound => exact .seen (hseen.congr hsame) hsince hpoorer hbound
  · refine .inr ⟨.unseen hnone, ?_⟩
    cases hcell with
    | unseen hunseen => exact hspan
    | seen hseen hsince hpoorer hbound =>
      obtain ⟨g, hg, rfl, _⟩ := hseen
      obtain rfl : f = g := Option.some.inj (hf.symm.trans hg)
      rcases hsince with rfl | hsince
      · exact hspan
      · have hlater : (0 : Int) ≤ later := Int.natCast_nonneg later
        refine (hbound.trans (bound_le_two_windows hfine hw)).trans (div_le_div_of_nonneg_right ?_ hpos.le)
        exact_mod_cast (by linarith : window * 2 ≤ started + later - since)

/-- A request that is granted takes a token. -/
theorem PoorCell.ask {q : LimitedRequest String} {now : Time}
    (hlib : TokenBucket lib (window.tdiv limit) limit e) (hfine : Fine (window.tdiv limit) limit e)
    (h : s.store.Has limit window) (hcell : PoorCell limit window e q.key s z since) (hpast : since ≤ now)
    (hgranted : (s.limits q now).1 = false) : (s.limits q now).2.store.Has limit window ∧
      lacking (window.tdiv limit - 1) z since now + 1 ≤ limit + slack (window.tdiv limit) ∧
      PoorCell limit window e q.key (s.limits q now).2
        (lacking (window.tdiv limit - 1) z since now + 1) now := by
  obtain ⟨l, hcounts, hpoorer⟩ := hcell.bucket hlib h
  obtain ⟨hanswer, hhas, hseen⟩ := limits_of_counts h hcounts now
  have hallow : (lib.allow l now).1 = true := by simpa using hanswer.symm.trans hgranted
  obtain ⟨hbound, hpoorer'⟩ := hpoorer.ask hlib hfine hpast hallow
  exact ⟨hhas, hbound, .seen hseen (.inr le_rfl) hpoorer' hbound⟩

/-- Later on, nothing is missing that has been given since. -/
theorem PoorCell.zero {now : Time} (hlib : TokenBucket lib (window.tdiv limit) limit e)
    (hfine : Fine (window.tdiv limit) limit e) (hcell : PoorCell limit window e key s z since)
    (hpast : since ≤ now) : PoorCell limit window e key s 0 now := by
  cases hcell with
  | unseen hnone => exact .unseen hnone
  | seen hseen _ hpoorer _ =>
    have hpos : (0 : ℚ) < (window.tdiv limit - 1 : Int) := by exact_mod_cast sub_pos.mpr hfine.long
    have hroom : (1 : ℚ) ≤ limit := by exact_mod_cast hfine.room
    have hslack : 0 ≤ slack (window.tdiv limit) := div_nonneg (by norm_num) hpos.le
    exact .seen hseen (.inl rfl) (.zero hlib (hpoorer.made.later hpast)) (by linarith)

/-- From a granted request on there is no more than there should be, but for the slack. -/
theorem atMost_of_grants (hlib : TokenBucket lib (window.tdiv limit) limit e)
    (hfine : Fine (window.tdiv limit) limit e) (hw : 0 ≤ window) (h : s.store.Has limit window)
    (hcell : PoorCell limit window e key s z since) (hsorted : (vs.map Visit.time).Pairwise (· ≤ ·))
    (hsince : ∀ v ∈ vs, since ≤ v.time) (hkey : ∀ v ∈ vs, ∀ q ∈ v.request?, q.key = key)
    (hgrants : s.Grants vs) :
    Rate.AtMost (window.tdiv limit - 1) (limit + slack (window.tdiv limit) - z) since
      (vs.filterMap Visit.asked?) := by
  induction vs generalizing s z since with
  | nil =>
    intro j t ht
    cases ht
  | cons v vs ih =>
    obtain ⟨hfirst, hsorted'⟩ := List.pairwise_cons.mp hsorted
    have hafter : ∀ f ∈ vs, v.time ≤ f.time := fun f hf => hfirst _ (List.mem_map_of_mem hf)
    have hsince' : ∀ f ∈ vs, since ≤ f.time := fun f hf => hsince f (List.mem_cons_of_mem v hf)
    have hkey' : ∀ f ∈ vs, ∀ q ∈ f.request?, q.key = key := fun f hf => hkey f (List.mem_cons_of_mem v hf)
    obtain ⟨hgranted, hgrants⟩ := hgrants
    cases v with
    | cleanup key' started later =>
      have hpast : since ≤ started + later := hsince _ List.mem_cons_self
      rcases hcell.cleanup hfine hw h key' hpast with hcell | ⟨hcell, hback⟩
      · exact ih (h.step _) hcell hsorted' hsince' hkey' hgrants
      · -- All that had been given has come back when the bucket is forgotten.
        exact (ih (h.step _) hcell hsorted' hafter hkey' hgrants).since (by linarith)
    | request q now =>
      obtain rfl : q.key = key := hkey _ List.mem_cons_self q rfl
      have hpast : since ≤ now := hsince _ List.mem_cons_self
      obtain ⟨hhas, hbound, hcell⟩ := hcell.ask hlib hfine h hpast hgranted
      have hrest := ih hhas hcell hsorted' hafter hkey' hgrants
      have hlacking : z - ((now - since : Int) : ℚ) / (window.tdiv limit - 1 : Int) ≤
          lacking (window.tdiv limit - 1) z since now := le_max_left _ _
      exact Rate.atMost_cons.mpr ⟨by linarith, hrest.mono (by linarith)⟩

/-- Requests that are granted conform to a faster bucket, but for the slack. -/
theorem conforms_of_poorCell (hlib : TokenBucket lib (window.tdiv limit) limit e)
    (hfine : Fine (window.tdiv limit) limit e) (hw : 0 ≤ window) (h : s.store.Has limit window)
    (hcell : PoorCell limit window e key s z since) (hsorted : (vs.map Visit.time).Pairwise (· ≤ ·))
    (hsince : ∀ v ∈ vs, since ≤ v.time) (hkey : ∀ v ∈ vs, ∀ q ∈ v.request?, q.key = key)
    (hgrants : s.Grants vs) :
    Rate.Conforms (window.tdiv limit - 1) (limit + slack (window.tdiv limit))
      (vs.filterMap Visit.asked?) := by
  induction vs generalizing s z since with
  | nil => trivial
  | cons v vs ih =>
    obtain ⟨hfirst, hsorted'⟩ := List.pairwise_cons.mp hsorted
    have hafter : ∀ f ∈ vs, v.time ≤ f.time := fun f hf => hfirst _ (List.mem_map_of_mem hf)
    have hsince' : ∀ f ∈ vs, since ≤ f.time := fun f hf => hsince f (List.mem_cons_of_mem v hf)
    have hkey' : ∀ f ∈ vs, ∀ q ∈ f.request?, q.key = key := fun f hf => hkey f (List.mem_cons_of_mem v hf)
    obtain ⟨hgranted, hgrants'⟩ := id hgrants
    cases v with
    | cleanup key' started later =>
      rcases hcell.cleanup hfine hw h key' (hsince _ List.mem_cons_self) with hcell | ⟨hcell, _⟩
      · exact ih (h.step _) hcell hsorted' hsince' hkey' hgrants'
      · exact ih (h.step _) hcell hsorted' hafter hkey' hgrants'
    | request q now =>
      obtain rfl : q.key = key := hkey _ List.mem_cons_self q rfl
      have hpast : since ≤ now := hsince _ List.mem_cons_self
      obtain ⟨hhas, _, hasked⟩ := hcell.ask hlib hfine h hpast hgranted
      refine ⟨?_, ih hhas hasked hsorted' hafter hkey' hgrants'⟩
      have hnow : ∀ f ∈ Visit.request q now :: vs, now ≤ f.time := List.forall_mem_cons.mpr ⟨le_rfl, hafter⟩
      have hmost := atMost_of_grants hlib hfine hw h (hcell.zero hlib hfine hpast) hsorted hnow hkey hgrants
      rwa [sub_zero] at hmost

/-- **Requests that a limiter grants conform to a faster one**, but for the slack. -/
theorem conforms_of_grants (hlib : TokenBucket lib (window.tdiv limit) limit e)
    (hfine : Fine (window.tdiv limit) limit e) (hw : 0 ≤ window)
    (hsorted : (vs.map Visit.time).Pairwise (· ≤ ·)) (hkey : ∀ v ∈ vs, ∀ q ∈ v.request?, q.key = key)
    (hgrants : (Limiting.new lib limit window).Grants vs) :
    Rate.Conforms (window.tdiv limit - 1) (limit + slack (window.tdiv limit))
      (vs.filterMap Visit.asked?) := by
  cases vs with
  | nil => trivial
  | cons v vs =>
    have hpast : ∀ f ∈ v :: vs, v.time ≤ f.time :=
      List.forall_mem_cons.mpr ⟨le_rfl, fun f hf => (List.pairwise_cons.mp hsorted).1 _ (List.mem_map_of_mem hf)⟩
    exact conforms_of_poorCell hlib hfine hw has_new (.unseen rfl) hsorted hpast hkey hgrants

end

end Middleware

end ExpenseSaas
