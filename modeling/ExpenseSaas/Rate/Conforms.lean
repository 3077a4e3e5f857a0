import ExpenseSaas.Rate.Limiter

/-!
# Events at a rate

What it is for events to come at no more than a rate: no span of time of length `T`
holds more than `burst + T / interval` of them. `Conforms` says it from the front,
one event after the other, as a bucket sees them (`atMost_next`), and
`conforms_iff` that the two are the same.
-/

namespace Rate

variable {interval : Duration}

/-- From time `s` on there are never more than `x` events and one for each interval. -/
def AtMost (interval : Duration) (x : ℚ) (s : Time) (ts : List Time) : Prop :=
  ∀ (j : Nat) (t : Time), ts[j]? = some t → (j + 1 : ℚ) ≤ x + ((t - s : Int) : ℚ) / interval

/-- The same, from every event on. -/
def Conforms (interval : Duration) (burst : ℚ) : List Time → Prop
  | [] => True
  | t :: ts => AtMost interval burst t (t :: ts) ∧ Conforms interval burst ts

theorem atMost_cons {x : ℚ} {s t : Time} {ts : List Time} :
    AtMost interval x s (t :: ts) ↔ 1 ≤ x + ((t - s : Int) : ℚ) / interval ∧
      AtMost interval (x + ((t - s : Int) : ℚ) / interval - 1) t ts := by
  have hshift : ∀ u : Time, x + ((u - s : Int) : ℚ) / interval =
      x + ((t - s : Int) : ℚ) / interval + ((u - t : Int) : ℚ) / interval := by
    intro u
    push_cast
    ring
  constructor
  · intro h
    refine ⟨by simpa using h 0 t rfl, fun j u hu => ?_⟩
    have hj := h (j + 1) u hu
    rw [hshift u, Nat.cast_succ] at hj
    linarith
  · rintro ⟨hfirst, hrest⟩ j u hu
    cases j with
    | zero =>
      cases hu
      simpa using hfirst
    | succ j =>
      have hj := hrest j u hu
      rw [hshift u, Nat.cast_succ]
      linarith

/-- From an earlier time on, what comes back until then need not be there. -/
theorem AtMost.since {x y : ℚ} {s t : Time} {ts : List Time} (h : AtMost interval x t ts)
    (hxy : x ≤ y + ((t - s : Int) : ℚ) / interval) : AtMost interval y s ts := by
  intro j u hu
  have hspan : ((u - s : Int) : ℚ) / interval =
      ((t - s : Int) : ℚ) / interval + ((u - t : Int) : ℚ) / interval := by
    push_cast
    ring
  linarith [h j u hu]

theorem AtMost.mono {x y : ℚ} {s : Time} {ts : List Time} (h : AtMost interval x s ts) (hxy : x ≤ y) :
    AtMost interval y s ts :=
  fun j t hj => (h j t hj).trans (by gcongr)

/-- What is left for the rest after an event, of what there is and no more than fits. -/
theorem atMost_next {x y : ℚ} {s t : Time} {ts : List Time} (h : AtMost interval x s (t :: ts))
    (hfit : AtMost interval y t (t :: ts)) :
    1 ≤ min (x + ((t - s : Int) : ℚ) / interval) y ∧
      AtMost interval (min (x + ((t - s : Int) : ℚ) / interval) y - 1) t ts := by
  obtain ⟨hone, hrest⟩ := atMost_cons.mp h
  obtain ⟨hone', hrest'⟩ := atMost_cons.mp hfit
  rw [sub_self, Int.cast_zero, zero_div, add_zero] at hone' hrest'
  rcases min_choice (x + ((t - s : Int) : ℚ) / interval) y with hm | hm <;> rw [hm]
  · exact ⟨hone, hrest⟩
  · exact ⟨hone', hrest'⟩

theorem atMost_iff_zipIdx {x : ℚ} {s : Time} {ts : List Time} : AtMost interval x s ts ↔
    ∀ p ∈ ts.zipIdx, (p.2 + 1 : ℚ) ≤ x + ((p.1 - s : Int) : ℚ) / interval :=
  ⟨fun h p hp => h p.2 p.1 (List.mem_zipIdx_iff_getElem?.mp hp),
    fun h j t hj => h (t, j) (List.mem_zipIdx_iff_getElem?.mpr hj)⟩

instance {x : ℚ} {s : Time} {ts : List Time} : Decidable (AtMost interval x s ts) :=
  decidable_of_iff _ atMost_iff_zipIdx.symm

instance decidableConforms {burst : ℚ} : ∀ ts : List Time, Decidable (Conforms interval burst ts)
  | [] => .isTrue trivial
  | _ :: ts => @instDecidableAnd _ _ _ (decidableConforms ts)

/-! ## In terms of spans of time -/

/-- How many of the events happen between `s` and `e`. -/
def inSpan (s e : Time) (ts : List Time) : Nat := ts.countP fun t => s ≤ t ∧ t ≤ e

/-- The events up to `e` come first. -/
theorem le_of_lt_countP {e : Time} {ts : List Time} (hts : ts.Pairwise (· ≤ ·)) {j : Nat}
    (hj : j < ts.countP fun t => t ≤ e) : ∃ u, ts[j]? = some u ∧ u ≤ e := by
  induction ts generalizing j with
  | nil => simp at hj
  | cons t ts ih =>
    obtain ⟨ht, hts⟩ := List.pairwise_cons.mp hts
    by_cases hte : t ≤ e
    · cases j with
      | zero => exact ⟨t, rfl, hte⟩
      | succ j =>
        rw [List.countP_cons_of_pos (by simpa using hte)] at hj
        exact ih hts (by omega)
    · -- Everything is later than `e`.
      have hnone : (t :: ts).countP (fun t => decide (t ≤ e)) = 0 := by
        refine List.countP_eq_zero.mpr fun u hu => ?_
        have htu : t ≤ u := by
          rcases List.mem_cons.mp hu with rfl | hu
          · exact le_rfl
          · exact ht u hu
        rw [decide_eq_true_eq, not_le]
        exact (not_le.mp hte).trans_le htu
      exact absurd (hnone ▸ hj) (Nat.not_lt_zero j)

theorem lt_countP_of_le {e u : Time} {ts : List Time} (hts : ts.Pairwise (· ≤ ·)) {j : Nat}
    (hj : ts[j]? = some u) (hu : u ≤ e) : j < ts.countP fun t => t ≤ e := by
  induction ts generalizing j with
  | nil => simp at hj
  | cons t ts ih =>
    obtain ⟨ht, hts⟩ := List.pairwise_cons.mp hts
    have hte : t ≤ e := by
      cases j with
      | zero =>
        cases hj
        exact hu
      | succ j => exact (ht u (List.mem_of_getElem? hj)).trans hu
    rw [List.countP_cons_of_pos (by simpa using hte)]
    cases j with
    | zero => omega
    | succ j => exact Nat.succ_lt_succ (ih hts hj)

/-- Events that all come after `s`. -/
theorem inSpan_of_le {s e : Time} {ts : List Time} (h : ∀ t ∈ ts, s ≤ t) :
    inSpan s e ts = ts.countP fun t => t ≤ e := by
  refine List.countP_congr fun t ht => ?_
  simp [h t ht]

/-- **Events conform if no span of time holds more than its share.** -/
theorem conforms_iff (hI : 0 < interval) {burst : ℚ} (hb : 0 ≤ burst) {ts : List Time}
    (hts : ts.Pairwise (· ≤ ·)) : Conforms interval burst ts ↔
      ∀ s e : Time, s ≤ e → (inSpan s e ts : ℚ) ≤ burst + ((e - s : Int) : ℚ) / interval := by
  have hpos : (0 : ℚ) < interval := by exact_mod_cast hI
  induction ts with
  | nil =>
    refine iff_of_true trivial fun s e hse => ?_
    have hspan : (0 : ℚ) ≤ ((e - s : Int) : ℚ) / interval :=
      div_nonneg (by exact_mod_cast sub_nonneg.mpr hse) hpos.le
    show ((0 : Nat) : ℚ) ≤ _
    rw [Nat.cast_zero]
    linarith
  | cons t ts ih =>
    obtain ⟨ht, hts'⟩ := List.pairwise_cons.mp hts
    have hle : ∀ u ∈ t :: ts, t ≤ u := by
      intro u hu
      rcases List.mem_cons.mp hu with rfl | hu
      · exact le_rfl
      · exact ht u hu
    refine (and_congr Iff.rfl (ih hts')).trans ?_
    constructor
    · rintro ⟨hfirst, hrest⟩ s e hse
      by_cases hst : s ≤ t
      · -- The span reaches back before the first event: count from there.
        have hcount := inSpan_of_le (e := e) (fun u hu => hst.trans (hle u hu))
        rw [hcount]
        cases hn : (t :: ts).countP fun u => u ≤ e with
        | zero =>
          have hspan : (0 : ℚ) ≤ ((e - s : Int) : ℚ) / interval :=
            div_nonneg (by exact_mod_cast sub_nonneg.mpr hse) hpos.le
          rw [Nat.cast_zero]
          linarith
        | succ n =>
          obtain ⟨u, hu, hue⟩ := le_of_lt_countP hts (show n < _ by rw [hn]; exact n.lt_succ_self)
          have hj := hfirst n u hu
          have hspan : ((u - t : Int) : ℚ) / interval ≤ ((e - s : Int) : ℚ) / interval := by
            refine div_le_div_of_nonneg_right ?_ hpos.le
            exact_mod_cast sub_le_sub hue hst
          rw [Nat.cast_succ]
          linarith
      · -- the span begins after the first event, which does not count
        have hskip : inSpan s e (t :: ts) = inSpan s e ts :=
          List.countP_cons_of_neg (by simp [hst])
        rw [hskip]
        exact hrest s e hse
    · intro h
      refine ⟨fun j u hu => ?_, fun s e hse => le_trans ?_ (h s e hse)⟩
      · have htu := hle u (List.mem_of_getElem? hu)
        -- the span from the first event to the `j`-th holds `j + 1` of them
        have hcount := lt_countP_of_le hts hu le_rfl
        rw [← inSpan_of_le hle] at hcount
        have hcast : (j + 1 : ℚ) ≤ inSpan t u (t :: ts) := by exact_mod_cast hcount
        exact hcast.trans (h t u htu)
      · exact_mod_cast (List.sublist_cons_self t ts).countP_le

end Rate
