import Mathlib.Algebra.GroupWithZero.Nat
import ExpenseSaas.Paging.Pages

/-!
# Counting on pages

How many rows with a property there are on all pages together. Each page is cut
from an arrangement of its own, so of the rows that tie at an edge some may be on
two pages and some on none. For the count this is no matter as long as they all
have the property or all have it not: `count_pages`. Otherwise the edge is
`Mixed`, and there are arrangements with which too many are counted: those with
the property come first up to the edge, and last from there on.
-/

namespace Paging

variable {α : Type} (le : α → α → Bool) (p : α → Bool)

/-- The two can stand in either order. -/
def ties (x y : α) : Bool := le x y && le y x

/-- Of the rows that can stand on either side of the edge after `b` rows, some have the property and some have not. -/
def Mixed (m : List α) (b : Nat) : Prop :=
  ∃ x ∈ m, ∃ y ∈ m, p x = true ∧ p y = false ∧ ties le x y = true ∧ before le m x < b ∧ b < upTo le m x

variable {le p} {l l' m : List α} {x y z : α} {b k n : Nat}

/-! ## What is on this side of an edge -/

/-- Whoever has to come before `x` comes with all its ties before `x`. -/
theorem upTo_le_before (hle : TotalPreorder le) (h : le x z = false) : upTo le m z ≤ before le m x := by
  refine List.countP_mono_left fun y _ hyz => ?_
  cases hxy : le x y with
  | false => rfl
  | true => exact absurd (hle.trans x y z hxy hyz) (by simp [h])

/-- Counted apart: what has to come before `x`, and what ties with it. -/
theorem countP_split (h : ∀ z ∈ l, le z x = true) :
    l.countP p = l.countP (fun z => !le x z && p z) + l.countP fun z => ties le x z && p z := by
  induction l with
  | nil => rfl
  | cons z l ih =>
    obtain ⟨hz, hl⟩ := List.forall_mem_cons.mp h
    rw [List.countP_cons, List.countP_cons, List.countP_cons, ih hl]
    unfold ties
    cases le x z <;> simp [hz] <;> omega

theorem upTo_eq_add (hle : TotalPreorder le) : upTo le m x = before le m x + m.countP (ties le x) := by
  unfold upTo before
  induction m with
  | nil => rfl
  | cons z m ih =>
    rw [List.countP_cons, List.countP_cons, List.countP_cons, ih]
    unfold ties
    have htotal := hle.total x z
    cases hxz : le x z with
    | false =>
      rw [hxz] at htotal
      have hzx : le z x = true := htotal.resolve_left Bool.false_ne_true
      simp only [hzx, Bool.not_false, Bool.false_and, if_true, Bool.false_eq_true, if_false]
      omega
    | true =>
      simp only [Bool.not_true, Bool.true_and, Bool.false_eq_true, if_false]
      omega

/-- Ties have the same range. -/
theorem range_of_ties (hle : TotalPreorder le) (h : ties le x z = true) :
    before le m x = before le m z ∧ upTo le m x = upTo le m z := by
  obtain ⟨hxz, hzx⟩ := (Bool.and_eq_true _ _).mp h
  have hsame : ∀ y, le x y = le z y ∧ le y x = le y z := by
    intro y
    constructor
    · exact Bool.eq_iff_iff.mpr ⟨fun hxy => hle.trans z x y hzx hxy, fun hzy => hle.trans x z y hxz hzy⟩
    · exact Bool.eq_iff_iff.mpr ⟨fun hyx => hle.trans y x z hyx hxz, fun hyz => hle.trans y z x hyz hzx⟩
  unfold before upTo
  constructor
  · refine List.countP_congr fun y _ => ?_
    rw [(hsame y).1]
  · refine List.countP_congr fun y _ => ?_
    rw [(hsame y).2]

/-- Nothing that has to come after `x` is before an edge that `x` is astride. -/
theorem le_of_mem_take (hle : TotalPreorder le) (h : Arranges le l m) (hupTo : b < upTo le m x)
    (hz : z ∈ l.take b) : le z x = true := by
  cases hzx : le z x with
  | true => rfl
  | false =>
    have hlt := before_lt_of_mem_take hle h hz
    have hge := upTo_le_before (m := m) hle hzx
    omega

/-- **Before the edge there is all that has to come before `x`**, and some of its ties. -/
theorem countP_take (hle : TotalPreorder le) (h : Arranges le l m) (hbefore : before le m x < b)
    (hupTo : b < upTo le m x) : (l.take b).countP p =
      m.countP (fun z => !le x z && p z) + (l.take b).countP fun z => ties le x z && p z := by
  rw [countP_split fun z hz => le_of_mem_take hle h hupTo hz]
  congr 1
  have hdrop : (l.drop b).countP (fun z => !le x z && p z) = 0 := by
    refine List.countP_eq_zero.mpr fun z hz hless => ?_
    have hlt := lt_upTo_of_mem_drop hle h hz
    have hge := upTo_le_before (m := m) hle
      (Bool.not_eq_true' _ |>.mp ((Bool.and_eq_true _ _).mp hless).1)
    omega
  rw [← h.perm.countP_eq, ← List.take_append_drop b l, List.countP_append, hdrop, Nat.add_zero,
    List.take_append_drop]

/-- How many of them. -/
theorem countP_ties_take (hle : TotalPreorder le) (h : Arranges le l m) (hbefore : before le m x < b)
    (hupTo : b < upTo le m x) : before le m x + (l.take b).countP (ties le x) = b := by
  have hall := countP_take hle h hbefore hupTo (p := fun _ => true)
  have hlen : b ≤ l.length := by
    have hall : upTo le m x ≤ m.length := upTo_le_length
    rw [h.perm.length_eq]
    omega
  simp only [Bool.and_true, List.countP_true, List.length_take, Nat.min_eq_left hlen] at hall
  exact hall.symm

/-! ## Edges that are not mixed -/

/-- If the edge is not mixed, the count before it does not depend on the arrangement. -/
theorem countP_take_eq (hle : TotalPreorder le) (h : Arranges le l m) (h' : Arranges le l' m)
    (hmix : ¬ Mixed le p m b) : (l.take b).countP p = (l'.take b).countP p := by
  by_cases hastride : Astride le m b
  · obtain ⟨x, hx, hbefore, hupTo⟩ := hastride
    -- All that tie with `x` are as `x` is.
    have hsame : ∀ z ∈ m, ties le x z = true → p z = p x := by
      intro z hz htie
      obtain ⟨hbefore', hupTo'⟩ := range_of_ties (m := m) hle htie
      have hswap : ties le z x = true := (Bool.and_comm _ _).trans htie
      cases hpz : p z with
      | true =>
        cases hpx : p x with
        | true => rfl
        | false => exact absurd ⟨z, hz, x, hx, hpz, hpx, hswap, by omega, by omega⟩ hmix
      | false =>
        cases hpx : p x with
        | true => exact absurd ⟨x, hx, z, hz, hpx, hpz, htie, hbefore, hupTo⟩ hmix
        | false => rfl
    have hcount : ∀ {l}, Arranges le l m → (l.take b).countP (fun z => ties le x z && p z) =
        if p x then b - before le m x else 0 := by
      intro l hl
      have hties := countP_ties_take hle hl hbefore hupTo
      have hmem : ∀ z ∈ l.take b, ties le x z = true → p z = p x := fun z hz =>
        hsame z (hl.perm.subset (List.mem_of_mem_take hz))
      cases hpx : p x with
      | true =>
        have hcongr : (l.take b).countP (fun z => ties le x z && p z) = (l.take b).countP (ties le x) := by
          refine List.countP_congr fun z hz => ?_
          rw [Bool.and_eq_true]
          exact and_iff_left_of_imp fun htie => (hmem z hz htie).trans hpx
        rw [hcongr, if_pos rfl]
        omega
      | false =>
        rw [if_neg Bool.false_ne_true]
        refine List.countP_eq_zero.mpr fun z hz hboth => ?_
        obtain ⟨htie, hpz⟩ := (Bool.and_eq_true _ _).mp hboth
        exact Bool.false_ne_true (hpx.symm.trans ((hmem z hz htie).symm.trans hpz))
    rw [countP_take hle h hbefore hupTo, countP_take hle h' hbefore hupTo, hcount h, hcount h']
  · exact (take_perm hle h h' hastride).countP_eq p

/-- A page between two such edges. -/
theorem countP_slice_eq {i : Nat} (hle : TotalPreorder le) (h : Arranges le l m) (h' : Arranges le l' m)
    (hedge : ∀ i, ¬ Mixed le p m (i * k)) : (slice k i l).countP p = (slice k i l').countP p := by
  have hstart := countP_take_eq hle h h' (hedge i)
  have hend := countP_take_eq hle h h' (hedge (i + 1))
  rw [← take_append_slice, ← take_append_slice, List.countP_append, List.countP_append] at hend
  omega

/-- The count on the first `n` pages of one arrangement. -/
theorem sum_slices : ((List.range n).map fun i => (slice k i l).countP p).sum = (l.take (n * k)).countP p := by
  rw [← flatMap_slice, List.countP_flatMap]
  rfl

/-- **With no mixed edge the pages count every row once.** -/
theorem count_pages {arr : Nat → List α} (hle : TotalPreorder le) (harr : ∀ i < n, Arranges le (arr i) m)
    (hn : m.length ≤ n * k) (hedge : ∀ i, ¬ Mixed le p m (i * k)) :
    ((List.range n).map fun i => (slice k i (arr i)).countP p).sum = m.countP p := by
  cases n with
  | zero =>
    rw [Nat.zero_mul, Nat.le_zero, List.length_eq_zero_iff] at hn
    rw [hn]
    rfl
  | succ n =>
    have h₀ := harr 0 (Nat.succ_pos n)
    have hone : ((List.range (n + 1)).map fun i => (slice k i (arr i)).countP p) =
        (List.range (n + 1)).map fun i => (slice k i (arr 0)).countP p :=
      List.map_congr_left fun i hi => countP_slice_eq hle (harr i (List.mem_range.mp hi)) h₀ hedge
    rw [hone, sum_slices, List.take_of_length_le (h₀.perm.length_eq ▸ hn)]
    exact h₀.perm.countP_eq p

/-! ## Mixed edges -/

/-- With the rows that have `q` first among their ties, all ties before the edge have it, or none after it. -/
theorem favoured {q : α → Bool} {rank : α → Nat} (h : Arranges (byRank le rank) l m) (hle : TotalPreorder le)
    (hrank : ∀ z ∈ m, ∀ w ∈ m, q z = true → q w = false → rank z < rank w) :
    (l.take b).countP (fun z => ties le x z && q z) = (l.take b).countP (ties le x) ∨
    (l.take b).countP (fun z => ties le x z && q z) = m.countP fun z => ties le x z && q z := by
  by_cases hall : ∀ w ∈ l.take b, ties le x w = true → q w = true
  · left
    refine List.countP_congr fun w hw => ?_
    rw [Bool.and_eq_true]
    exact and_iff_left_of_imp (hall w hw)
  · right
    simp only [not_forall, Bool.not_eq_true] at hall
    obtain ⟨w, hw, htw, hqw⟩ := hall
    have hdrop : (l.drop b).countP (fun z => ties le x z && q z) = 0 := by
      refine List.countP_eq_zero.mpr fun z hz hboth => ?_
      obtain ⟨htz, hqz⟩ := (Bool.and_eq_true _ _).mp hboth
      have hsorted := h.sorted
      rw [← List.take_append_drop b l] at hsorted
      have hwz := (List.pairwise_append.mp hsorted).2.2 w hw z hz
      have hzw : le z w = true :=
        hle.trans z x w ((Bool.and_eq_true _ _).mp htz).2 ((Bool.and_eq_true _ _).mp htw).1
      have hlt := hrank z (h.perm.subset (List.mem_of_mem_drop hz)) w
        (h.perm.subset (List.mem_of_mem_take hw)) hqz hqw
      simp [byRank, hzw] at hwz
      omega
    rw [← h.perm.countP_eq, ← List.take_append_drop b l, List.countP_append, hdrop, Nat.add_zero,
      List.take_append_drop]

/-- An arrangement that favours `p` has more of it before a mixed edge than one that favours the rest. -/
theorem lt_of_mixed {ra rb : α → Nat} {a c : List α} (hle : TotalPreorder le)
    (ha : Arranges (byRank le ra) a m) (hc : Arranges (byRank le rb) c m) (hmix : Mixed le p m b)
    (hra : ∀ z ∈ m, ∀ w ∈ m, p z = true → p w = false → ra z < ra w)
    (hrb : ∀ z ∈ m, ∀ w ∈ m, p z = true → p w = false → rb w < rb z) :
    (c.take b).countP p < (a.take b).countP p := by
  obtain ⟨x, hx, y, hy, hpx, hpy, htie, hbefore, hupTo⟩ := hmix
  have ha' := arranges_of_byRank ha
  have hc' := arranges_of_byRank hc
  rw [countP_take hle ha' hbefore hupTo, countP_take hle hc' hbefore hupTo]
  have hta := countP_ties_take hle ha' hbefore hupTo
  have htc := countP_ties_take hle hc' hbefore hupTo
  -- The ties of `x`, with the property and without it.
  have hsplit : ∀ l : List α, l.countP (ties le x) =
      l.countP (fun z => ties le x z && p z) + l.countP fun z => ties le x z && !p z := by
    intro l
    induction l with
    | nil => rfl
    | cons z l ih =>
      rw [List.countP_cons, List.countP_cons, List.countP_cons, ih]
      cases ties le x z <;> cases p z <;> simp <;> omega
  have hrange := upTo_eq_add (m := m) (x := x) hle
  have hm := hsplit m
  have hcount := hsplit (c.take b)
  have hwith : 0 < m.countP fun z => ties le x z && p z := by
    refine List.countP_pos_iff.mpr ⟨x, hx, ?_⟩
    simp [ties, hle.refl x, hpx]
  have hwithout : 0 < m.countP fun z => ties le x z && !p z := by
    refine List.countP_pos_iff.mpr ⟨y, hy, ?_⟩
    simp [htie, hpy]
  have hfa := favoured (b := b) (x := x) ha hle hra
  have hfc := favoured (b := b) (x := x) (q := fun z => !p z) hc hle fun z hz w hw hqz hqw =>
    hrb w hw z hz (by simpa using hqw) (by simpa using hqz)
  omega

/--
**A mixed edge is miscounted**: with the rows that have the property first up to
the edge, and last from there on, some are counted twice.
-/
theorem miscount_of_mixed {ra rb : α → Nat} {a c : List α} {e : Nat} (hle : TotalPreorder le)
    (hn : m.length ≤ n * k) (ha : Arranges (byRank le ra) a m) (hc : Arranges (byRank le rb) c m)
    (hmix : Mixed le p m (e * k)) (hra : ∀ z ∈ m, ∀ w ∈ m, p z = true → p w = false → ra z < ra w)
    (hrb : ∀ z ∈ m, ∀ w ∈ m, p z = true → p w = false → rb w < rb z) :
    m.countP p < ((List.range n).map fun i => (slice k i (if i < e then a else c)).countP p).sum := by
  have hlt := lt_of_mixed hle ha hc hmix hra hrb
  have he : e ≤ n := by
    obtain ⟨x, _, _, _, _, _, _, _, hupTo⟩ := hmix
    have hlen : upTo le m x ≤ m.length := upTo_le_length
    by_contra hne
    have := Nat.mul_le_mul_right k (Nat.le_of_not_le hne)
    omega
  -- The pages up to the edge, and those from there on.
  have hsum : ∀ t, ((List.range (e + t)).map fun i => (slice k i (if i < e then a else c)).countP p).sum +
      (c.take (e * k)).countP p = (a.take (e * k)).countP p + (c.take ((e + t) * k)).countP p := by
    intro t
    induction t with
    | zero =>
      have hfirst : ((List.range e).map fun i => (slice k i (if i < e then a else c)).countP p) =
          (List.range e).map fun i => (slice k i a).countP p := by
        refine List.map_congr_left fun i hi => ?_
        rw [if_pos (List.mem_range.mp hi)]
      rw [Nat.add_zero, hfirst, sum_slices]
    | succ t ih =>
      have hpage : ¬ e + t < e := by omega
      rw [← Nat.add_assoc, List.range_succ, List.map_append, List.sum_append, List.map_singleton,
        List.sum_singleton, if_neg hpage, ← take_append_slice, List.countP_append]
      omega
  obtain ⟨t, rfl⟩ := Nat.exists_eq_add_of_le he
  have hall := hsum t
  have hwhole : c.take ((e + t) * k) = c := List.take_of_length_le (hc.perm.length_eq ▸ hn)
  rw [hwhole, hc.perm.countP_eq] at hall
  omega

end Paging
