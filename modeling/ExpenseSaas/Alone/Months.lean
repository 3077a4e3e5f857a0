import Mathlib.Data.List.Dedup
import ExpenseSaas.Alone.Dashboards

/-!
# What was paid, month by month

`MonthlySummary` groups the paid reports by the month their period starts in. The
query bounds the months from below only, so the months it answers with are the
last `n` as long as nothing is paid that starts in a later one: nothing else keeps
a period from lying in the future. `Covers` is what a summary should be, and
`covers_iff` when it is.

A month is a number here, twelve to the year (`Date.monthIndex`).
-/

namespace ExpenseSaas

open ReadCommitted Sql

/-- The reports that were paid: live ones of the tenant, of one user if given. -/
def Database.paid (d : Database) (t : UUID) (u : Option UUID) : List ExpenseReport :=
  reportRows.filter (fun r => mine t u r && decide (r.status = .paid)) d

/-- What was paid for reports whose period starts in month `m`. -/
def Database.paidIn (d : Database) (t : UUID) (u : Option UUID) (m : Nat) : Int :=
  (((d.paid t u).filter fun r => r.periodStart.monthIndex = m).map ExpenseReport.totalAmount).sum

/-! ## Months, latest first -/

section

variable {rows : List ExpenseReport} {m : Nat}

theorem mem_monthsDesc : m ∈ monthsDesc rows ↔ ∃ r ∈ rows, r.periodStart.monthIndex = m := by
  unfold monthsDesc
  rw [List.mem_insertionSort, List.mem_dedup, List.mem_map]

/-- No month comes twice. -/
theorem pairwise_monthsDesc : (monthsDesc rows).Pairwise (· > ·) := by
  have htotal : Std.Total fun a b : Nat => b ≤ a := ⟨fun a b => Nat.le_total b a⟩
  have htrans : IsTrans Nat fun a b => b ≤ a := ⟨fun a b c hab hbc => Nat.le_trans hbc hab⟩
  have hsorted : (monthsDesc rows).Pairwise fun a b => b ≤ a := List.pairwise_insertionSort _ _
  have hnodup : (monthsDesc rows).Nodup := by
    unfold monthsDesc
    exact (List.perm_insertionSort _ _).nodup_iff.mpr (List.nodup_dedup _)
  refine (List.Pairwise.and hsorted hnodup).imp fun {a b} h => ?_
  exact Nat.lt_of_le_of_ne h.1 (Ne.symm h.2)

end

/-- So many numbers from `a` on, `a` left out, up to `b`. -/
theorem length_le_of_range {l : List Nat} {a b : Int} (hdesc : l.Pairwise (· > ·))
    (hrange : ∀ m ∈ l, a < m ∧ m ≤ b) (hab : a ≤ b) : (l.length : Int) ≤ b - a := by
  induction l generalizing b with
  | nil =>
    rw [List.length_nil]
    omega
  | cons m l ih =>
    obtain ⟨hm, hdesc⟩ := List.pairwise_cons.mp hdesc
    obtain ⟨hlt, hle⟩ := hrange m List.mem_cons_self
    have hrest : ∀ x ∈ l, a < x ∧ (x : Int) ≤ m - 1 := by
      intro x hx
      have hxm := hm x hx
      have hx := (hrange x (List.mem_cons_of_mem _ hx)).1
      omega
    have hlen := ih hdesc hrest (by omega)
    rw [List.length_cons]
    omega

/-! ## The query -/

section

variable {env : Nat → Oracle} {db d : Database} {clock : Oracle} {k m : Nat} {s' : Solo server} {t : UUID}
  {u : Option UUID} {n since : Int} {out : List MonthlySummary}

/-- The month the query starts with can be told. -/
theorem sinceMonth_eq_ok : sinceMonth clock n = .ok since ↔
    since = clock.today.monthIndex - (n - 1) ∧ FitsInt4 (n - 1) ∧ firstMonth ≤ since ∧ since ≤ lastMonth := by
  unfold sinceMonth
  rw [Except.bind_eq_ok]
  constructor
  · rintro ⟨back, hback, h⟩
    obtain ⟨hfits, rfl⟩ := int4_eq_ok.mp hback
    dsimp only at h
    split at h
    · rename_i hrange
      cases h
      exact ⟨rfl, hfits, hrange⟩
    · cases h
  · rintro ⟨rfl, hfits, hrange⟩
    refine ⟨n - 1, int4_eq_ok.mpr ⟨hfits, rfl⟩, ?_⟩
    dsimp only
    rw [if_pos hrange]

/-- The entry for a month. -/
def Database.entry (d : Database) (t : UUID) (u : Option UUID) (m : Nat) : MonthlySummary where
  yearMonth := (((d.paid t u).filter fun r => r.periodStart.monthIndex = m).head?.map fun r =>
    r.periodStart.yearMonth).getD ""
  totalAmount := d.paidIn t u m

/-- The reports the query looks at. -/
def Database.paidSince (d : Database) (t : UUID) (u : Option UUID) (since : Int) : List ExpenseReport :=
  (d.paid t u).filter fun r => since ≤ r.periodStart.monthIndex

theorem mem_months_paidSince : m ∈ monthsDesc (d.paidSince t u since) ↔
    since ≤ m ∧ ∃ r ∈ d.paid t u, r.periodStart.monthIndex = m := by
  rw [mem_monthsDesc]
  unfold Database.paidSince
  constructor
  · rintro ⟨r, hr, rfl⟩
    obtain ⟨hmem, hsince⟩ := List.mem_filter.mp hr
    exact ⟨of_decide_eq_true hsince, r, hmem, rfl⟩
  · rintro ⟨hsince, r, hr, rfl⟩
    exact ⟨r, List.mem_filter.mpr ⟨hr, decide_eq_true hsince⟩, rfl⟩

/-- **What the query answers**: an entry for each month from `since` on, if all of them fit. -/
theorem monthlySummary_eq_ok : Sql.monthlySummary t u n d clock = .ok out ↔
    ∃ since, sinceMonth clock n = .ok since ∧
      (∀ m ∈ monthsDesc (d.paidSince t u since), FitsInt4 (d.paidIn t u m)) ∧
      out = (monthsDesc (d.paidSince t u since)).map (d.entry t u) := by
  unfold Sql.monthlySummary
  rw [Except.bind_eq_ok]
  refine exists_congr fun since => and_congr_right fun _ => ?_
  have hrows : reportRows.filter (fun r => r.tenantID = t && given u (fun u => r.userID = u)
      && r.status = .paid && r.deletedAt.isNone && decide (since ≤ r.periodStart.monthIndex)) d =
        d.paidSince t u since := by
    unfold Database.paidSince Database.paid
    show d.reports.rows.filter _ = (d.reports.rows.filter _).filter _
    rw [List.filter_filter]
    refine List.filter_congr fun r _ => ?_
    unfold mine
    cases decide (r.tenantID = t) <;> cases given u (fun u => r.userID = u) <;> cases r.deletedAt.isNone <;>
      cases decide (r.status = .paid) <;> simp
  dsimp only
  rw [hrows]
  -- The rows of a month that the query looks at are all of that month.
  have hmonth : ∀ m ∈ monthsDesc (d.paidSince t u since), (d.paidSince t u since).filter (fun r =>
      r.periodStart.monthIndex = m) = (d.paid t u).filter fun r => r.periodStart.monthIndex = m := by
    intro m hm
    unfold Database.paidSince
    rw [List.filter_filter]
    refine List.filter_congr fun r _ => ?_
    by_cases hr : r.periodStart.monthIndex = m
    · rw [hr]
      simp [(mem_months_paidSince.mp hm).1]
    · simp [hr]
  refine mapM_eq_ok fun m hm e => ?_
  rw [hmonth m hm, Except.bind_eq_ok]
  constructor
  · rintro ⟨total, htotal, he⟩
    obtain ⟨hfits, rfl⟩ := int4_eq_ok.mp htotal
    cases he
    exact ⟨hfits, rfl⟩
  · rintro ⟨hfits, rfl⟩
    exact ⟨_, int4_eq_ok.mpr ⟨hfits, rfl⟩, rfl⟩

theorem gives_monthlySummary : GivesAlone env (ReportRepo.monthlySummary t u n) (.inside db clock d k) out s' ↔
    Sql.monthlySummary t u (int32 n) d clock = .ok out ∧ s' = .inside db clock d (k + 1) := by
  cases u with
  | none => exact gives_errorf.trans ((gives_query (q := .monthlySummaryAll t (int32 n)) rfl).trans Iff.rfl)
  | some u =>
    exact gives_errorf.trans ((gives_query (q := .monthlySummaryByUser t u (int32 n)) rfl).trans Iff.rfl)

/-! ## What a summary should be -/

/-- The month is one of the `n` that end with the current one. -/
def Among (today : Date) (n : Int) (m : Nat) : Prop := today.monthIndex - n < m ∧ m ≤ today.monthIndex

/-- The entry is that of month `m`: what was paid, under the name of that month and of no other. -/
structure EntryFor (d : Database) (t : UUID) (u : Option UUID) (m : Nat) (e : MonthlySummary) : Prop where
  total : e.totalAmount = d.paidIn t u m
  name : ∀ r ∈ d.paid t u, r.periodStart.yearMonth = e.yearMonth ↔ r.periodStart.monthIndex = m

/--
**The summary covers the last `n` months**: an entry for each of them in which the
period of something paid starts, the latest first, and no other.
-/
def Covers (d : Database) (t : UUID) (u : Option UUID) (today : Date) (n : Int)
    (summary : List MonthlySummary) : Prop :=
  ∃ months : List Nat, months.Pairwise (· > ·) ∧ (summary.length : Int) ≤ n ∧
    (∀ m, m ∈ months ↔ Among today n m ∧ ∃ r ∈ d.paid t u, r.periodStart.monthIndex = m) ∧
    List.Forall₂ (EntryFor d t u) months summary

/-- What was paid for periods from `since` on can be shown: nothing outside the last `n` months is among it. -/
structure Showable (d : Database) (t : UUID) (u : Option UUID) (today : Date) (n since : Int) : Prop where
  told : firstMonth ≤ since ∧ since ≤ lastMonth
  within : ∀ r ∈ d.paid t u, since ≤ r.periodStart.monthIndex ↔ Among today n r.periodStart.monthIndex
  fits : ∀ r ∈ d.paid t u, since ≤ r.periodStart.monthIndex → FitsInt4 (d.paidIn t u r.periodStart.monthIndex)
  /-- Years `0` and `1` are both shown as `0001`. -/
  apart : ∀ r ∈ d.paid t u, since ≤ r.periodStart.monthIndex → ∀ x ∈ d.paid t u,
    (x.periodStart.yearMonth = r.periodStart.yearMonth ↔ x.periodStart.monthIndex = r.periodStart.monthIndex)

/-- The name of an entry is that of a report of its month. -/
theorem yearMonth_entry (h : ∃ r ∈ d.paid t u, r.periodStart.monthIndex = m) :
    ∃ r ∈ d.paid t u, r.periodStart.monthIndex = m ∧ (d.entry t u m).yearMonth = r.periodStart.yearMonth := by
  obtain ⟨r, hr, hm⟩ := h
  unfold Database.entry
  have hmem : r ∈ (d.paid t u).filter fun r => r.periodStart.monthIndex = m :=
    List.mem_filter.mpr ⟨hr, decide_eq_true hm⟩
  cases hhead : ((d.paid t u).filter fun r => r.periodStart.monthIndex = m).head? with
  | none =>
    rw [List.head?_eq_none_iff.mp hhead] at hmem
    exact absurd hmem List.not_mem_nil
  | some x =>
    obtain ⟨hx, hxm⟩ := List.mem_filter.mp (List.mem_of_mem_head? hhead)
    exact ⟨x, hx, of_decide_eq_true hxm, by simp⟩

/-- Entries of the query can be for their own months only. -/
theorem eq_of_entries {months asked : List Nat}
    (hasked : ∀ m ∈ asked, ∃ r ∈ d.paid t u, r.periodStart.monthIndex = m)
    (h : List.Forall₂ (EntryFor d t u) months (asked.map (d.entry t u))) : months = asked := by
  induction asked generalizing months with
  | nil => exact List.forall₂_nil_right_iff.mp h
  | cons a asked ih =>
    obtain ⟨m, months, hentry, hrest, rfl⟩ := List.forall₂_cons_right_iff.mp h
    have hmonths := ih (fun m hm => hasked m (List.mem_cons_of_mem _ hm)) hrest
    obtain ⟨r, hr, hra, hname⟩ := yearMonth_entry (hasked a List.mem_cons_self)
    have ham : a = m := hra.symm.trans ((hentry.name r hr).mp hname.symm)
    rw [ham, hmonths]

/--
**The summary covers the last months** exactly when nothing is paid that starts in
a later one, and when the month it starts with and the sums can be told.
-/
theorem covers_iff (hn : 1 ≤ n) : (∃ summary s', GivesAlone env (ReportRepo.monthlySummary t u n)
    (.inside db clock d k) summary s' ∧ Covers d t u clock.today n summary) ↔
      Showable d t u clock.today n (clock.today.monthIndex - (int32 n - 1)) := by
  constructor
  · rintro ⟨summary, s', hgives, months, _, _, hmonths, hentries⟩
    obtain ⟨since, hsince, hfits, rfl⟩ := monthlySummary_eq_ok.mp (gives_monthlySummary.mp hgives).1
    obtain ⟨hsince, _, htold⟩ := sinceMonth_eq_ok.mp hsince
    -- The months that should be covered are those that the query looks at.
    obtain rfl := eq_of_entries (fun m hm => (mem_months_paidSince.mp hm).2) hentries
    rw [List.forall₂_map_right_iff, List.forall₂_same] at hentries
    rw [← hsince]
    have hasked : ∀ r ∈ d.paid t u, since ≤ r.periodStart.monthIndex →
        r.periodStart.monthIndex ∈ monthsDesc (d.paidSince t u since) :=
      fun r hr hle => mem_months_paidSince.mpr ⟨hle, r, hr, rfl⟩
    refine ⟨htold, fun r hr => ⟨fun hle => ?_, fun hamong => ?_⟩, fun r hr hle => ?_, fun r hr hle x hx => ?_⟩
    · exact ((hmonths _).mp (hasked r hr hle)).1
    · exact (mem_months_paidSince.mp ((hmonths _).mpr ⟨hamong, r, hr, rfl⟩)).1
    · exact hfits _ (hasked r hr hle)
    · have hentry := hentries _ (hasked r hr hle)
      rw [(hentry.name r hr).mpr rfl]
      exact hentry.name x hx
  · intro h
    have hfits : FitsInt4 (int32 n - 1) := by
      obtain ⟨_, hlast⟩ := h.told
      have hlow : -2 ^ 31 ≤ int32 n := Int.le_bmod (by decide)
      have hhigh : int32 n < 2 ^ 31 := Int.bmod_lt (by decide)
      unfold lastMonth at hlast
      constructor <;> omega
    have hmonths : ∀ m, m ∈ monthsDesc (d.paidSince t u (clock.today.monthIndex - (int32 n - 1))) ↔
        Among clock.today n m ∧ ∃ r ∈ d.paid t u, r.periodStart.monthIndex = m := by
      intro m
      rw [mem_months_paidSince]
      refine and_congr_left fun hpaid => ?_
      obtain ⟨r, hr, rfl⟩ := hpaid
      exact h.within r hr
    refine ⟨_, _, gives_monthlySummary.mpr ⟨monthlySummary_eq_ok.mpr
      ⟨_, sinceMonth_eq_ok.mpr ⟨rfl, hfits, h.told⟩, fun m hm => ?_, rfl⟩, rfl⟩,
      monthsDesc (d.paidSince t u (clock.today.monthIndex - (int32 n - 1))), pairwise_monthsDesc, ?_, hmonths, ?_⟩
    · obtain ⟨hle, r, hr, rfl⟩ := mem_months_paidSince.mp hm
      exact h.fits r hr hle
    · rw [List.length_map]
      have hrange : ∀ m ∈ monthsDesc (d.paidSince t u (clock.today.monthIndex - (int32 n - 1))),
          clock.today.monthIndex - n < (m : Int) ∧ (m : Int) ≤ clock.today.monthIndex := by
        intro m hm
        obtain ⟨hlt, hle⟩ := ((hmonths m).mp hm).1
        exact ⟨hlt, Int.ofNat_le.mpr hle⟩
      have hlength := length_le_of_range pairwise_monthsDesc hrange (by omega)
      omega
    · rw [List.forall₂_map_right_iff, List.forall₂_same]
      intro m hm
      refine ⟨rfl, fun x hx => ?_⟩
      obtain ⟨hle, hpaid⟩ := mem_months_paidSince.mp hm
      obtain ⟨r, hr, rfl, hname⟩ := yearMonth_entry hpaid
      rw [hname]
      exact h.apart r hr hle x hx

end

namespace Sample

/-- The report of the small tenant, paid. -/
def paidReport : ExpenseReport :=
  { report with status := .paid, periodStart := ⟨2023, 12, 1⟩, periodEnd := ⟨2023, 12, 31⟩ }

def paid : Database := { database with reports := database.reports.put paidReport }

/-- It was for a month to come. -/
def early : ExpenseReport := { paidReport with periodStart := ⟨2024, 3, 1⟩, periodEnd := ⟨2024, 3, 31⟩ }

def paidEarly : Database := { database with reports := database.reports.put early }

end Sample

theorem covers_of_paid : ∃ summary s', GivesAlone (fun _ => Oracle.at 9) (ReportRepo.monthlySummary 10 none 3)
    (.inside Sample.paid (Oracle.at 9) Sample.paid 1) summary s' ∧
      Covers Sample.paid 10 none (Oracle.at 9).today 3 summary := by
  have hpaid : ∀ r ∈ Sample.paid.paid 10 none, r = Sample.paidReport := by decide +kernel
  refine (covers_iff (by decide)).mpr ⟨by decide, fun r hr => ?_, fun r hr _ => ?_, fun r hr _ x hx => ?_⟩
  · rw [hpaid r hr]
    unfold Among
    decide
  · rw [hpaid r hr]
    unfold FitsInt4
    decide +kernel
  · rw [hpaid r hr, hpaid x hx]
    exact iff_of_true rfl rfl

/--
**An entry for a month to come.** What was paid in advance for March is in the
summary of the three months that end with January.
-/
theorem not_covers_of_early : ∃ s', GivesAlone (fun _ => Oracle.at 9) (ReportRepo.monthlySummary 10 none 3)
    (.inside Sample.paidEarly (Oracle.at 9) Sample.paidEarly 1) [⟨"2024-03", 100⟩] s' ∧
      ¬ Covers Sample.paidEarly 10 none (Oracle.at 9).today 3 [⟨"2024-03", 100⟩] := by
  have hpaid : ∀ r ∈ Sample.paidEarly.paid 10 none, r = Sample.early := by decide +kernel
  refine ⟨_, gives_monthlySummary.mpr ⟨by decide +kernel, rfl⟩, fun hcovers => ?_⟩
  obtain ⟨months, _, _, hmonths, hentries⟩ := hcovers
  obtain ⟨m, rest, _, _, rfl⟩ := List.forall₂_cons_right_iff.mp hentries
  obtain ⟨⟨_, hle⟩, r, hr, hm⟩ := (hmonths m).mp List.mem_cons_self
  rw [hpaid r hr] at hm
  rw [← hm] at hle
  exact absurd hle (by decide)

end ExpenseSaas
