import Mathlib.Data.List.Nodup
import Mathlib.Data.List.Perm.Basic

/-!
# Pages of a sorted list

A list is read page by page, and each page is cut from an arrangement of its
own: all of them are sorted by the same preorder, but rows that tie may stand in
a different order every time.

A row `x` stands somewhere between the `before x` rows that have to come before
it and the `upTo x` rows that may. What is on a page is settled exactly when no
such range reaches across its edges, so the pages together are the list, each
row once, if and only if no row is so `Astride` an edge: `pages_perm` is one
direction, and `twice_of_astride` the other: it gives arrangements that put one
row on two pages.
-/

namespace Paging

variable {α : Type}

/-! ## Pages -/

/-- Page `i`, counted from zero, in pages of `k`. -/
def slice (k i : Nat) (l : List α) : List α := (l.drop (i * k)).take k

/-- Page `i` ends where the next one begins. -/
theorem take_append_slice {k i : Nat} {l : List α} :
    l.take (i * k) ++ slice k i l = l.take ((i + 1) * k) := by
  unfold slice
  rw [Nat.add_mul, Nat.one_mul, List.take_add]

theorem flatMap_slice {k n : Nat} {l : List α} :
    (List.range n).flatMap (fun i => slice k i l) = l.take (n * k) := by
  induction n with
  | zero => simp
  | succ n ih =>
    rw [List.range_succ, List.flatMap_append, ih, List.flatMap_cons, List.flatMap_nil,
      List.append_nil, take_append_slice]

/-- A page that is followed by another is full. -/
theorem length_slice {k i : Nat} {l : List α} (h : (i + 1) * k ≤ l.length) :
    (slice k i l).length = k := by
  rw [Nat.add_mul, Nat.one_mul] at h
  unfold slice
  rw [List.length_take, List.length_drop]
  omega

/-- Where a row stands tells its page. -/
theorem mem_slice {k : Nat} {l₁ l₂ : List α} {x : α} (hk : 0 < k) :
    x ∈ slice k (l₁.length / k) (l₁ ++ x :: l₂) := by
  have hdiv := Nat.div_add_mod l₁.length k
  have hmod := Nat.mod_lt l₁.length hk
  rw [Nat.mul_comm] at hdiv
  have hget : (slice k (l₁.length / k) (l₁ ++ x :: l₂))[l₁.length % k]? = some x := by
    unfold slice
    rw [List.getElem?_take_of_lt hmod, List.getElem?_drop, hdiv, List.getElem?_append_right (Nat.le_refl _),
      Nat.sub_self, List.getElem?_cons_zero]
  exact List.mem_of_getElem? hget

/-! ## Arrangements -/

/-- A preorder in which any two rows can be compared. -/
structure TotalPreorder (le : α → α → Bool) : Prop where
  total : ∀ x y, le x y = true ∨ le y x = true
  trans : ∀ x y z, le x y = true → le y z = true → le x z = true

theorem TotalPreorder.refl {le : α → α → Bool} (h : TotalPreorder le) (x : α) : le x x = true :=
  (h.total x x).elim id id

variable (le : α → α → Bool)

/-- `l` is `m`, sorted. -/
structure Arranges (l m : List α) : Prop where
  perm : l.Perm m
  sorted : l.Pairwise fun x y => le x y = true

/-- How many rows of `m` have to come before `x`. -/
def before (m : List α) (x : α) : Nat := m.countP fun y => !le x y

/-- How many rows of `m` come before `x` or tie with it, `x` itself included. -/
def upTo (m : List α) (x : α) : Nat := m.countP fun y => le y x

/-- A row can stand on either side of the edge after `b` rows. -/
def Astride (m : List α) (b : Nat) : Prop := ∃ x ∈ m, before le m x < b ∧ b < upTo le m x

/-- Ties are broken by `rank`. -/
def byRank (rank : α → Nat) (x y : α) : Bool := le x y && (!le y x || decide (rank x ≤ rank y))

variable {le} {l m l₁ l₂ : List α} {x : α} {b k n : Nat}

theorem Arranges.before_eq (h : Arranges le l m) (x : α) : before le l x = before le m x :=
  h.perm.countP_eq _

theorem Arranges.upTo_eq (h : Arranges le l m) (x : α) : upTo le l x = upTo le m x :=
  h.perm.countP_eq _

instance : Decidable (Astride le m b) := inferInstanceAs (Decidable (∃ x ∈ m, _))

theorem upTo_le_length : upTo le m x ≤ m.length := List.countP_le_length

/-- No row stands across an edge if none does across one within the list. -/
theorem not_astride_of_edges (hk : 1 ≤ k) (h : ∀ e < m.length, ¬ Astride le m (e * k)) (e : Nat) :
    ¬ Astride le m (e * k) := by
  by_cases he : e < m.length
  · exact h e he
  · rintro ⟨x, _, _, hupTo⟩
    have hle : upTo le m x ≤ m.length := upTo_le_length
    have hedge := Nat.mul_le_mul_left e hk
    omega

/-- What stands before `x` includes all that has to. -/
theorem before_le (hle : TotalPreorder le) (h : Arranges le (l₁ ++ x :: l₂) m) :
    before le m x ≤ l₁.length := by
  have hafter : (x :: l₂).countP (fun y => !le x y) = 0 := by
    refine List.countP_eq_zero.mpr (fun y hy => ?_)
    have hxy : le x y = true := by
      rcases List.mem_cons.mp hy with rfl | hy
      · exact hle.refl y
      · exact List.rel_of_pairwise_cons (List.pairwise_append.mp h.sorted).2.1 hy
    simp [hxy]
  rw [← h.before_eq, before, List.countP_append, hafter]
  exact List.countP_le_length

/-- And nothing but what may. -/
theorem lt_upTo (hle : TotalPreorder le) (h : Arranges le (l₁ ++ x :: l₂) m) :
    l₁.length < upTo le m x := by
  have hbefore : l₁.countP (fun y => le y x) = l₁.length := by
    refine List.countP_eq_length.mpr (fun y hy => ?_)
    exact (List.pairwise_append.mp h.sorted).2.2 y hy x List.mem_cons_self
  have hself : 0 < (x :: l₂).countP (fun y => le y x) :=
    List.countP_pos_iff.mpr ⟨x, List.mem_cons_self, hle.refl x⟩
  rw [← h.upTo_eq, upTo, List.countP_append, hbefore]
  omega

/-- The first among those it ties with stands right after those that have to come before it. -/
theorem length_of_first (h : Arranges le (l₁ ++ x :: l₂) m) (hle : TotalPreorder le)
    (hfirst : ∀ y ∈ l₁, le x y = false) : l₁.length = before le m x := by
  refine Nat.le_antisymm ?_ (before_le hle h)
  have hall : l₁.countP (fun y => !le x y) = l₁.length :=
    List.countP_eq_length.mpr fun y hy => by simp [hfirst y hy]
  rw [← h.before_eq, before, List.countP_append, hall]
  omega

/-- The last among those it ties with stands right before those that have to come after it. -/
theorem length_of_last (h : Arranges le (l₁ ++ x :: l₂) m) (hle : TotalPreorder le)
    (hlast : ∀ y ∈ l₂, le y x = false) : l₁.length + 1 = upTo le m x := by
  refine Nat.le_antisymm (lt_upTo hle h) ?_
  have hnone : l₂.countP (fun y => le y x) = 0 :=
    List.countP_eq_zero.mpr fun y hy => by simp [hlast y hy]
  have hle₁ : l₁.countP (fun y => le y x) ≤ l₁.length := List.countP_le_length
  rw [← h.upTo_eq, upTo, List.countP_append, List.countP_cons, hnone, if_pos (hle.refl x)]
  omega

/-- A row that ties with no other has one place. -/
theorem upTo_le_of_unique (hle : TotalPreorder le) (hnodup : m.Nodup) (hx : x ∈ m)
    (hunique : ∀ y ∈ m, le x y = true → le y x = true → y = x) :
    upTo le m x ≤ before le m x + 1 := by
  obtain ⟨l₁, l₂, rfl⟩ := List.append_of_mem hx
  have hne := List.nodup_append.mp hnodup
  have hrest : ∀ y ∈ l₁ ++ x :: l₂, y ≠ x → le y x = true → (!le x y) = true := by
    intro y hy hyx h
    cases hxy : le x y with
    | false => rfl
    | true => exact absurd (hunique y hy hxy h) hyx
  have h₁ : l₁.countP (fun y => le y x) ≤ l₁.countP fun y => !le x y := by
    refine List.countP_mono_left fun y hy h => ?_
    exact hrest y (List.mem_append_left _ hy) (hne.2.2 y hy x List.mem_cons_self) h
  have h₂ : l₂.countP (fun y => le y x) ≤ l₂.countP fun y => !le x y := by
    refine List.countP_mono_left fun y hy h => ?_
    refine hrest y (List.mem_append_right _ (List.mem_cons_of_mem _ hy)) ?_ h
    rintro rfl
    exact (List.nodup_cons.mp hne.2.1).1 hy
  simp only [upTo, before, List.countP_append, List.countP_cons, hle.refl x, if_true]
  omega

/-- Where no two rows tie, every edge is settled. -/
theorem not_astride_of_unique (hle : TotalPreorder le) (hnodup : m.Nodup)
    (hunique : ∀ x ∈ m, ∀ y ∈ m, le x y = true → le y x = true → y = x) : ¬ Astride le m b := by
  rintro ⟨x, hx, hbefore, hupTo⟩
  have := upTo_le_of_unique hle hnodup hx (hunique x hx)
  omega

/-! ## Settled edges -/

theorem before_lt_of_mem_take (hle : TotalPreorder le) (h : Arranges le l m) (hx : x ∈ l.take b) :
    before le m x < b := by
  obtain ⟨l₁, l₂, htk⟩ := List.append_of_mem hx
  have hl : l = l₁ ++ x :: (l₂ ++ l.drop b) := by
    rw [← List.cons_append, ← List.append_assoc, ← htk, List.take_append_drop]
  have hlen := congrArg List.length htk
  simp only [List.length_take, List.length_append, List.length_cons] at hlen
  have hbefore := before_le hle (hl ▸ h)
  omega

theorem lt_upTo_of_mem_drop (hle : TotalPreorder le) (h : Arranges le l m) (hx : x ∈ l.drop b) :
    b < upTo le m x := by
  obtain ⟨l₁, l₂, hdr⟩ := List.append_of_mem hx
  have hl : l = (l.take b ++ l₁) ++ x :: l₂ := by
    rw [List.append_assoc, ← hdr, List.take_append_drop]
  have hlen : b ≤ (l.take b).length := by
    have hpos := List.length_pos_of_mem hx
    rw [List.length_drop] at hpos
    rw [List.length_take]
    omega
  have hupto := lt_upTo hle (hl ▸ h)
  rw [List.length_append] at hupto
  omega

/-- What comes before a settled edge does not depend on the arrangement. -/
theorem take_eq_filter (hle : TotalPreorder le) (h : Arranges le l m) (hb : ¬ Astride le m b) :
    l.take b = l.filter fun x => decide (upTo le m x ≤ b) := by
  have htake : ∀ x ∈ l.take b, upTo le m x ≤ b := by
    intro x hx
    by_contra hlt
    exact hb ⟨x, h.perm.subset (List.mem_of_mem_take hx), before_lt_of_mem_take hle h hx, by omega⟩
  have hdrop : ∀ x ∈ l.drop b, ¬ upTo le m x ≤ b := fun x hx =>
    Nat.not_le.mpr (lt_upTo_of_mem_drop hle h hx)
  conv_rhs => rw [← List.take_append_drop b l]
  rw [List.filter_append, List.filter_eq_self.mpr fun x hx => by simpa using htake x hx,
    List.filter_eq_nil_iff.mpr fun x hx => by simpa using hdrop x hx, List.append_nil]

theorem take_perm {l' : List α} (hle : TotalPreorder le) (h : Arranges le l m)
    (h' : Arranges le l' m) (hb : ¬ Astride le m b) : (l.take b).Perm (l'.take b) := by
  rw [take_eq_filter hle h hb, take_eq_filter hle h' hb]
  exact (h.perm.trans h'.perm.symm).filter _

/-- A page between two settled edges has the same rows in every arrangement. -/
theorem slice_perm {l' : List α} {i : Nat} (hle : TotalPreorder le) (h : Arranges le l m)
    (h' : Arranges le l' m) (hedge : ∀ i, ¬ Astride le m (i * k)) :
    (slice k i l).Perm (slice k i l') := by
  have hstart := take_perm hle h h' (hedge i)
  have hend := take_perm hle h h' (hedge (i + 1))
  rw [← take_append_slice, ← take_append_slice] at hend
  exact (List.perm_append_left_iff _).mp ((hstart.append_right _).symm.trans hend)

/-- **Pages with settled edges are the list**, each row once. -/
theorem pages_perm {arr : Nat → List α} (hle : TotalPreorder le)
    (harr : ∀ i < n, Arranges le (arr i) m) (hn : m.length ≤ n * k)
    (hedge : ∀ i, ¬ Astride le m (i * k)) :
    ((List.range n).flatMap fun i => slice k i (arr i)).Perm m := by
  cases n with
  | zero =>
    rw [Nat.zero_mul, Nat.le_zero, List.length_eq_zero_iff] at hn
    rw [hn]
    exact .refl _
  | succ n =>
    have h₀ := harr 0 (Nat.succ_pos n)
    have hone : ((List.range (n + 1)).flatMap fun i => slice k i (arr i)).Perm
        ((List.range (n + 1)).flatMap fun i => slice k i (arr 0)) :=
      List.Perm.flatMap_left _ fun i hi =>
        slice_perm hle (harr i (List.mem_range.mp hi)) h₀ hedge
    rw [flatMap_slice, List.take_of_length_le (h₀.perm.length_eq ▸ hn)] at hone
    exact hone.trans h₀.perm

/-! ## Unsettled edges -/

theorem le_of_byRank {rank : α → Nat} {y : α} (h : byRank le rank x y = true) : le x y = true :=
  (Bool.and_eq_true_iff.mp h).1

theorem arranges_of_byRank {rank : α → Nat} (h : Arranges (byRank le rank) l m) : Arranges le l m :=
  ⟨h.perm, h.sorted.imp le_of_byRank⟩

/-- A row that ranks below all others comes as early as it can. -/
theorem length_of_least {rank : α → Nat} (hle : TotalPreorder le)
    (h : Arranges (byRank le rank) (l₁ ++ x :: l₂) m) (hnodup : m.Nodup)
    (hrank : ∀ y ∈ m, y ≠ x → rank x < rank y) : l₁.length = before le m x := by
  refine length_of_first (arranges_of_byRank h) hle (fun y hy => ?_)
  have hyx := (List.pairwise_append.mp h.sorted).2.2 y hy x List.mem_cons_self
  have hne : y ≠ x :=
    (List.nodup_append.mp (h.perm.nodup_iff.mpr hnodup)).2.2 y hy x List.mem_cons_self
  have hlt := hrank y (h.perm.subset (List.mem_append_left _ hy)) hne
  have htie := (Bool.and_eq_true_iff.mp hyx).2
  rw [Bool.or_eq_true, Bool.not_eq_true', decide_eq_true_eq] at htie
  exact htie.resolve_right (Nat.not_le.mpr hlt)

/-- And one that ranks above all others as late. -/
theorem length_of_greatest {rank : α → Nat} (hle : TotalPreorder le)
    (h : Arranges (byRank le rank) (l₁ ++ x :: l₂) m) (hnodup : m.Nodup)
    (hrank : ∀ y ∈ m, y ≠ x → rank y < rank x) : l₁.length + 1 = upTo le m x := by
  refine length_of_last (arranges_of_byRank h) hle (fun y hy => ?_)
  have hsorted := (List.pairwise_append.mp h.sorted).2.1
  have hxy := List.rel_of_pairwise_cons hsorted hy
  have hne : y ≠ x := by
    rintro rfl
    have hnd := (List.nodup_append.mp (h.perm.nodup_iff.mpr hnodup)).2.1
    exact (List.nodup_cons.mp hnd).1 hy
  have hlt := hrank y (h.perm.subset (List.mem_append_right _ (List.mem_cons_of_mem _ hy))) hne
  have htie := (Bool.and_eq_true_iff.mp hxy).2
  rw [Bool.or_eq_true, Bool.not_eq_true', decide_eq_true_eq] at htie
  exact htie.resolve_right (Nat.not_le.mpr hlt)

/--
**A row astride an edge can be on two pages**: when it ranks lowest up to the
edge and highest from there on.
-/
theorem twice_of_astride {arr : Nat → List α} (rank : Nat → α → Nat) {i : Nat}
    (hle : TotalPreorder le) (hnodup : m.Nodup) (hk : 0 < k) (hn : m.length ≤ n * k)
    (harr : ∀ j < n, Arranges (byRank le (rank j)) (arr j) m) (hx : x ∈ m)
    (hbefore : before le m x < i * k) (hupTo : i * k < upTo le m x)
    (hlow : ∀ j < i, ∀ y ∈ m, y ≠ x → rank j x < rank j y)
    (hhigh : ∀ j ≥ i, ∀ y ∈ m, y ≠ x → rank j y < rank j x) :
    ¬ ((List.range n).flatMap fun j => slice k j (arr j)).Nodup := by
  have hlen : upTo le m x ≤ m.length := upTo_le_length
  -- The page it is on while it comes early, and the one when it comes late.
  have hpage : ∀ j < n, ∃ l₁ l₂, arr j = l₁ ++ x :: l₂ := fun j hj =>
    List.append_of_mem ((harr j hj).perm.mem_iff.mpr hx)
  have hi : i < n := by
    by_contra hni
    have := Nat.mul_le_mul_right k (Nat.not_lt.mp hni)
    omega
  have hearly : ∃ a < i, x ∈ slice k a (arr a) := by
    have ha : before le m x / k < i := Nat.div_lt_of_lt_mul (Nat.mul_comm i k ▸ hbefore)
    have han := Nat.lt_trans ha hi
    obtain ⟨l₁, l₂, hl⟩ := hpage _ han
    have harr' := harr _ han
    rw [hl] at harr'
    have hpos := length_of_least hle harr' hnodup (hlow _ ha)
    refine ⟨_, ha, ?_⟩
    rw [hl, ← hpos]
    exact mem_slice hk
  have hlate : ∃ c ≥ i, c < n ∧ x ∈ slice k c (arr c) := by
    have hc : i ≤ (upTo le m x - 1) / k := (Nat.le_div_iff_mul_le hk).mpr (by omega)
    have hcn : (upTo le m x - 1) / k < n := Nat.div_lt_of_lt_mul (by rw [Nat.mul_comm k n]; omega)
    obtain ⟨l₁, l₂, hl⟩ := hpage _ hcn
    have harr' := harr _ hcn
    rw [hl] at harr'
    have hpos := length_of_greatest hle harr' hnodup (hhigh _ hc)
    refine ⟨_, hc, hcn, ?_⟩
    rw [hl, ← hpos, Nat.add_sub_cancel]
    exact mem_slice hk
  intro honce
  obtain ⟨a, ha, hxa⟩ := hearly
  obtain ⟨c, hc, hcn, hxc⟩ := hlate
  have hdisjoint := (List.nodup_flatMap.mp honce).2
  have hpair := List.pairwise_iff_getElem.mp hdisjoint a c (by simpa using Nat.lt_trans ha hi)
    (by simpa using hcn) (Nat.lt_of_lt_of_le ha hc)
  simp only [List.getElem_range] at hpair
  exact hpair hxa hxc

end Paging
