import Mathlib.Algebra.BigOperators.Group.List.Basic
import ExpenseSaas.Alone.Listings
import ExpenseSaas.Paging.Counts

/-!
# What the dashboard shows

The dashboard counts reports by their status, in the tenant and among the
actor's own (`Database.number`), and adds up by month what was paid. A part of
it is refused when a number does not fit an `INTEGER`, and for no other reason:
`gives_countByStatus` and `gives_monthlySummary` say what each query answers, and
`Shows` what the dashboard of each role is made of.
-/

namespace ExpenseSaas

open ReadCommitted Sql Paging

/-- How many live reports of the tenant, of one user if given, are in this status. -/
def Database.number (d : Database) (t : UUID) (u : Option UUID) (s : ReportStatus) : Nat :=
  (reportRows.filter (mine t u) d).countP fun r => r.status = s

/-! ## Rows that are computed one by one -/

theorem mapM_eq_ok {α β : Type} {f : α → Except SqlError β} {g : α → β} {P : α → Prop} {l : List α}
    {out : List β} (h : ∀ a ∈ l, ∀ b, f a = .ok b ↔ P a ∧ b = g a) :
    l.mapM f = .ok out ↔ (∀ a ∈ l, P a) ∧ out = l.map g := by
  induction l generalizing out with
  | nil =>
    rw [List.mapM_nil]
    constructor
    · intro h
      cases h
      exact ⟨fun a ha => absurd ha List.not_mem_nil, rfl⟩
    · rintro ⟨_, rfl⟩
      rfl
  | cons a l ih =>
    have ha := h a List.mem_cons_self
    have hl : ∀ x ∈ l, ∀ b, f x = .ok b ↔ P x ∧ b = g x := fun x hx => h x (List.mem_cons_of_mem _ hx)
    rw [List.mapM_cons, Except.bind_eq_ok, List.forall_mem_cons]
    constructor
    · rintro ⟨b, hb, hrest⟩
      obtain ⟨bs, hbs, hout⟩ := Except.bind_eq_ok.mp hrest
      obtain ⟨hP, rfl⟩ := (ha b).mp hb
      obtain ⟨hPs, rfl⟩ := (ih hl).mp hbs
      cases hout
      exact ⟨⟨hP, hPs⟩, rfl⟩
    · rintro ⟨⟨hP, hPs⟩, rfl⟩
      refine ⟨g a, (ha _).mpr ⟨hP, rfl⟩, Except.bind_eq_ok.mpr ⟨l.map g, ?_, rfl⟩⟩
      exact (ih hl).mpr ⟨hPs, rfl⟩

/-- What `lookup` finds among the values of a function. -/
theorem lookup_map {α β : Type} [BEq α] [LawfulBEq α] {l : List α} {f : α → β} {a : α} :
    (l.map fun x => (x, f x)).lookup a = if a ∈ l then some (f a) else none := by
  induction l with
  | nil => rfl
  | cons x l ih =>
    rw [List.map_cons, List.lookup_cons]
    by_cases hx : a == x
    · obtain rfl := eq_of_beq hx
      simp
    · have hne : a ≠ x := fun heq => hx (heq ▸ BEq.rfl)
      simp [hx, ih, hne]

/-- **`GROUP BY status`** answers the number of rows in each status, if they all fit. -/
theorem countByStatus_eq_ok {rows : List ExpenseReport} {out : List (ReportStatus × Int)} :
    Sql.countByStatus rows = .ok out ↔ (∀ s, rows.countP (fun r => r.status = s) < 2 ^ 31) ∧
      out = ([ReportStatus.draft, .submitted, .approved, .rejected, .paid].filter fun s =>
        rows.any fun r => r.status = s).map fun s => (s, (rows.countP (fun r => r.status = s) : Int)) := by
  have hgroup : ∀ (s : ReportStatus) (b : ReportStatus × Int), (do
      let n ← Sql.count (rows.filter fun r => r.status = s)
      .ok (s, n) : Except SqlError (ReportStatus × Int)) = .ok b ↔
        rows.countP (fun r => r.status = s) < 2 ^ 31 ∧ b = (s, (rows.countP (fun r => r.status = s) : Int)) := by
    intro s b
    rw [Except.bind_eq_ok, List.countP_eq_length_filter]
    constructor
    · rintro ⟨n, hn, hb⟩
      obtain ⟨hlt, rfl⟩ := count_eq_ok.mp hn
      cases hb
      exact ⟨hlt, rfl⟩
    · rintro ⟨hlt, rfl⟩
      exact ⟨_, count_eq_ok.mpr ⟨hlt, rfl⟩, rfl⟩
  unfold Sql.countByStatus
  rw [mapM_eq_ok fun s _ => hgroup s]
  refine and_congr_left fun _ => ⟨fun h s => ?_, fun h s _ => h s⟩
  -- A status that no row is in counts zero.
  by_cases hany : (rows.any fun r => r.status = s) = true
  · refine h s (List.mem_filter.mpr ⟨?_, hany⟩)
    cases s <;> decide
  · have hzero : rows.countP (fun r => r.status = s) = 0 := by
      refine List.countP_eq_zero.mpr fun r hr hs => hany ?_
      exact List.any_eq_true.mpr ⟨r, hr, hs⟩
    rw [hzero]
    decide

/-- The number that is read out of the groups. -/
theorem lookup_groups {rows : List ExpenseReport} (s : ReportStatus) :
    ((([ReportStatus.draft, .submitted, .approved, .rejected, .paid].filter fun s =>
      rows.any fun r => r.status = s).map fun s =>
        (s, (rows.countP (fun r => r.status = s) : Int))).lookup s).getD 0 =
      rows.countP (fun r => r.status = s) := by
  rw [lookup_map]
  split
  · rfl
  · rename_i hnot
    have hzero : rows.countP (fun r => r.status = s) = 0 := by
      refine List.countP_eq_zero.mpr fun r hr hs => hnot (List.mem_filter.mpr ⟨?_, ?_⟩)
      · cases s <;> decide
      · exact List.any_eq_true.mpr ⟨r, hr, hs⟩
    rw [hzero]
    rfl

/-! ## The parts of the dashboard -/

section

variable {env : Nat → Oracle} {db d : Database} {clock : Oracle} {n : Nat} {s' : Solo server} {t u : UUID}
  {actor : Actor} {data data' : DashboardData}

/-- The numbers of a tenant, or of one user, all fit. -/
def NumbersFit (d : Database) (t : UUID) (u : Option UUID) : Prop := ∀ s, d.number t u s < 2 ^ 31

theorem gives_countByStatus {u : Option UUID} {f : ReportStatus → Int} :
    GivesAlone env (ReportRepo.countByStatus t u) (.inside db clock d n) f s' ↔
      (NumbersFit d t u ∧ f = fun s => (d.number t u s : Int)) ∧ s' = .inside db clock d (n + 1) := by
  have hgroups : ∀ {x : Service (List (ReportStatus × Int))},
      (∀ out s', GivesAlone env x (.inside db clock d n) out s' ↔
        Sql.countByStatus (reportRows.filter (mine t u) d) = .ok out ∧ s' = .inside db clock d (n + 1)) →
      (GivesAlone env (do
          let rows ← errorf "reportRepo.CountByStatus" x
          pure fun s => (rows.lookup s).getD 0) (.inside db clock d n) f s' ↔
        (NumbersFit d t u ∧ f = fun s => (d.number t u s : Int)) ∧ s' = .inside db clock d (n + 1)) := by
    intro x hx
    refine gives_bind.trans ?_
    constructor
    · rintro ⟨out, s₁, hout, hf⟩
      obtain ⟨hcount, rfl⟩ := (hx _ _).mp (gives_errorf.mp hout)
      obtain ⟨hfits, rfl⟩ := countByStatus_eq_ok.mp hcount
      obtain ⟨rfl, rfl⟩ := gives_pure.mp hf
      exact ⟨⟨hfits, funext lookup_groups⟩, rfl⟩
    · rintro ⟨⟨hfits, rfl⟩, rfl⟩
      refine ⟨_, _, gives_errorf.mpr ((hx _ _).mpr ⟨countByStatus_eq_ok.mpr ⟨hfits, rfl⟩, rfl⟩), ?_⟩
      exact gives_pure.mpr ⟨(funext lookup_groups).symm, rfl⟩
  cases u with
  | none => exact hgroups fun _ _ => gives_query (q := .countReportsByStatus t) rfl
  | some u => exact hgroups fun _ _ => gives_query (q := .countMyReportsByStatus t u) rfl

/-- The reports the user has changed last. -/
def Database.recent (d : Database) (t u : UUID) (rank : UUID → Nat) : List ExpenseReport :=
  (orderBy (fun r => desc r.updatedAt ++ asc (rank r.reportID)) (reportRows.filter (mine t (some u)) d)).take 5

/-- `fillMemberFields`: the actor's own numbers, and the reports changed last. -/
theorem gives_fillMemberFields :
    GivesAlone env (DashboardService.fillMemberFields t u data) (.inside db clock d n) data' s' ↔
      NumbersFit d t (some u) ∧
      data' = { data with
        myDraftCount := some (d.number t (some u) .draft : Int)
        mySubmittedCount := some (d.number t (some u) .submitted : Int)
        myRejectedCount := some (d.number t (some u) .rejected : Int)
        recentReports := some ((d.recent t u (env (n + 1)).rank).map DashboardService.toRecentReport) } ∧
      s' = .inside db clock d (n + 2) := by
  have hrecent : ∀ {rows s'}, GivesAlone env (ReportRepo.listRecentReports t u 5) (.inside db clock d (n + 1))
      rows s' ↔ rows = d.recent t u (env (n + 1)).rank ∧ s' = .inside db clock d (n + 2) := by
    intro rows s'
    have hfive : int32 5 = 5 := (int32_eq_self (by decide)).mpr (by decide)
    unfold ReportRepo.listRecentReports
    rw [hfive]
    refine gives_errorf.trans ((gives_query (q := .listRecentReports t u 5) rfl).trans ?_)
    refine and_congr_left fun _ => ?_
    have hpage : Sql.pageOf 5 0 (fun r => desc r.updatedAt) (env (n + 1)) (reportRows.filter (mine t (some u)) d) =
        .ok (d.recent t u (env (n + 1)).rank) := by
      unfold Sql.pageOf Sql.page Database.recent
      rw [if_neg (by decide)]
      rfl
    rw [hpage, Except.ok.injEq]
    exact eq_comm
  refine gives_bind.trans ?_
  constructor
  · rintro ⟨counts, s₁, hcounts, h⟩
    obtain ⟨⟨hfits, rfl⟩, rfl⟩ := gives_countByStatus.mp (gives_errorf.mp hcounts)
    obtain ⟨rows, s₂, hrows, h⟩ := gives_bind.mp h
    obtain ⟨rfl, rfl⟩ := hrecent.mp (gives_errorf.mp hrows)
    obtain ⟨rfl, rfl⟩ := gives_pure.mp h
    exact ⟨hfits, rfl, rfl⟩
  · rintro ⟨hfits, rfl, rfl⟩
    refine ⟨_, _, gives_errorf.mpr (gives_countByStatus.mpr ⟨⟨hfits, rfl⟩, rfl⟩), ?_⟩
    refine gives_bind.mpr ⟨_, _, gives_errorf.mpr (hrecent.mpr ⟨rfl, rfl⟩), ?_⟩
    exact gives_pure.mpr ⟨rfl, rfl⟩

theorem gives_fillApproverFields :
    GivesAlone env (DashboardService.fillApproverFields t u data) (.inside db clock d n) data' s' ↔
      (NumbersFit d t none ∧ NumbersFit d t (some u)) ∧
      data' = { data with
        pendingApprovalCount := some ((d.number t none .submitted : Int) - d.number t (some u) .submitted) } ∧
      s' = .inside db clock d (n + 2) := by
  refine gives_bind.trans ?_
  constructor
  · rintro ⟨all, s₁, hall, h⟩
    obtain ⟨⟨hfits, rfl⟩, rfl⟩ := gives_countByStatus.mp (gives_errorf.mp hall)
    obtain ⟨my, s₂, hmy, h⟩ := gives_bind.mp h
    obtain ⟨⟨hfits', rfl⟩, rfl⟩ := gives_countByStatus.mp (gives_errorf.mp hmy)
    obtain ⟨rfl, rfl⟩ := gives_pure.mp h
    exact ⟨⟨hfits, hfits'⟩, rfl, rfl⟩
  · rintro ⟨⟨hfits, hfits'⟩, rfl, rfl⟩
    refine ⟨_, _, gives_errorf.mpr (gives_countByStatus.mpr ⟨⟨hfits, rfl⟩, rfl⟩), ?_⟩
    refine gives_bind.mpr ⟨_, _, gives_errorf.mpr (gives_countByStatus.mpr ⟨⟨hfits', rfl⟩, rfl⟩), ?_⟩
    exact gives_pure.mpr ⟨rfl, rfl⟩

theorem gives_fillAccountingFields :
    GivesAlone env (DashboardService.fillAccountingFields t data) (.inside db clock d n) data' s' ↔
      NumbersFit d t none ∧
      data' = { data with pendingPaymentCount := some (d.number t none .approved : Int) } ∧
      s' = .inside db clock d (n + 1) := by
  refine gives_bind.trans ?_
  constructor
  · rintro ⟨all, s₁, hall, h⟩
    obtain ⟨⟨hfits, rfl⟩, rfl⟩ := gives_countByStatus.mp (gives_errorf.mp hall)
    obtain ⟨rfl, rfl⟩ := gives_pure.mp h
    exact ⟨hfits, rfl, rfl⟩
  · rintro ⟨hfits, rfl, rfl⟩
    refine ⟨_, _, gives_errorf.mpr (gives_countByStatus.mpr ⟨⟨hfits, rfl⟩, rfl⟩), ?_⟩
    exact gives_pure.mpr ⟨rfl, rfl⟩

/-- `fillAdminFields`: the numbers of the tenant, and how many members it has. -/
theorem gives_fillAdminFields :
    GivesAlone env (DashboardService.fillAdminFields t data) (.inside db clock d n) data' s' ↔
      (NumbersFit d t none ∧ (membershipRows.filter (fun m => m.tenantID = t) d).length < 2 ^ 31) ∧
      data' = { data with
        tenantDraftCount := some (d.number t none .draft : Int)
        tenantSubmittedCount := some (d.number t none .submitted : Int)
        tenantApprovedCount := some (d.number t none .approved : Int)
        tenantRejectedCount := some (d.number t none .rejected : Int)
        tenantPaidCount := some (d.number t none .paid : Int)
        tenantMemberCount := some ((membershipRows.filter (fun m => m.tenantID = t) d).length : Int) } ∧
      s' = .inside db clock d (n + 2) := by
  have hmembers : ∀ {i s'}, GivesAlone env (MembershipRepo.countByTenantID t) (.inside db clock d (n + 1)) i s' ↔
      Sql.count (membershipRows.filter (fun m => m.tenantID = t) d) = .ok i ∧ s' = .inside db clock d (n + 2) := by
    intro i s'
    exact gives_errorf.trans ((gives_query (q := .countMembersByTenantID t) rfl).trans Iff.rfl)
  refine gives_bind.trans ?_
  constructor
  · rintro ⟨all, s₁, hall, h⟩
    obtain ⟨⟨hfits, rfl⟩, rfl⟩ := gives_countByStatus.mp (gives_errorf.mp hall)
    obtain ⟨members, s₂, hmem, h⟩ := gives_bind.mp h
    obtain ⟨hcount, rfl⟩ := hmembers.mp (gives_errorf.mp hmem)
    obtain ⟨hlt, rfl⟩ := count_eq_ok.mp hcount
    obtain ⟨rfl, rfl⟩ := gives_pure.mp h
    exact ⟨⟨hfits, hlt⟩, rfl, rfl⟩
  · rintro ⟨⟨hfits, hlt⟩, rfl, rfl⟩
    refine ⟨_, _, gives_errorf.mpr (gives_countByStatus.mpr ⟨⟨hfits, rfl⟩, rfl⟩), ?_⟩
    refine gives_bind.mpr ⟨_, _, gives_errorf.mpr (hmembers.mpr ⟨count_eq_ok.mpr ⟨hlt, rfl⟩, rfl⟩), ?_⟩
    exact gives_pure.mpr ⟨rfl, rfl⟩

/-- `fillMonthlySummary`: what was paid, month by month, if it can be added up. -/
theorem gives_fillMonthlySummary :
    GivesAlone env (DashboardService.fillMonthlySummary t data) (.inside db clock d n) data' s' ↔
      (∃ summary, Sql.monthlySummary t none 3 d clock = .ok summary ∧
        data' = { data with monthlySummary := some summary }) ∧ s' = .inside db clock d (n + 1) := by
  have hquery : ∀ {summary s'}, GivesAlone env (ReportRepo.monthlySummary t none 3) (.inside db clock d n)
      summary s' ↔ Sql.monthlySummary t none 3 d clock = .ok summary ∧ s' = .inside db clock d (n + 1) := by
    intro summary s'
    have hthree : int32 3 = 3 := (int32_eq_self (by decide)).mpr (by decide)
    unfold ReportRepo.monthlySummary
    rw [hthree]
    exact gives_errorf.trans (gives_query (q := .monthlySummaryAll t 3) rfl)
  refine gives_bind.trans ?_
  constructor
  · rintro ⟨summary, s₁, hsummary, h⟩
    obtain ⟨hok, rfl⟩ := hquery.mp (gives_errorf.mp hsummary)
    obtain ⟨rfl, rfl⟩ := gives_pure.mp h
    exact ⟨⟨summary, hok, rfl⟩, rfl⟩
  · rintro ⟨⟨summary, hok, rfl⟩, rfl⟩
    refine ⟨summary, _, gives_errorf.mpr (hquery.mpr ⟨hok, rfl⟩), ?_⟩
    exact gives_pure.mpr ⟨rfl, rfl⟩

/-! ## The dashboard -/

/-- The numbers on the dashboard of an actor. -/
structure Shows (actor : Actor) (d : Database) (data : DashboardData) : Prop where
  own : actor.role ≠ .admin →
    data.myDraftCount = some (d.number actor.tenantID (some actor.userID) .draft : Int) ∧
    data.mySubmittedCount = some (d.number actor.tenantID (some actor.userID) .submitted : Int) ∧
    data.myRejectedCount = some (d.number actor.tenantID (some actor.userID) .rejected : Int)
  pending : actor.role = .approver → data.pendingApprovalCount = some
    ((d.number actor.tenantID none .submitted : Int) - d.number actor.tenantID (some actor.userID) .submitted)
  payment : actor.role = .accounting →
    data.pendingPaymentCount = some (d.number actor.tenantID none .approved : Int)
  tenant : actor.role = .admin →
    data.tenantDraftCount = some (d.number actor.tenantID none .draft : Int) ∧
    data.tenantSubmittedCount = some (d.number actor.tenantID none .submitted : Int) ∧
    data.tenantApprovedCount = some (d.number actor.tenantID none .approved : Int) ∧
    data.tenantRejectedCount = some (d.number actor.tenantID none .rejected : Int) ∧
    data.tenantPaidCount = some (d.number actor.tenantID none .paid : Int)

/-- What the dashboard of the actor has to count and to add up can be told as an `INTEGER`. -/
structure Countable (actor : Actor) (d : Database) (clock : Oracle) : Prop where
  own : actor.role ≠ .admin → NumbersFit d actor.tenantID (some actor.userID)
  tenant : actor.role ≠ .member → NumbersFit d actor.tenantID none
  members : actor.role = .admin →
    (membershipRows.filter (fun m => m.tenantID = actor.tenantID) d).length < 2 ^ 31
  months : actor.role ≠ .member → ∃ summary, Sql.monthlySummary actor.tenantID none 3 d clock = .ok summary

/-- **The dashboard shows the numbers of the database**, if they can be told. -/
theorem getDashboard_alone
    (h : GivesAlone env (DashboardService.getDashboard actor) (.inside db clock d n) data s') :
    Shows actor d data ∧ Countable actor d clock := by
  unfold DashboardService.getDashboard at h
  cases hrole : actor.role with
  | member =>
    rw [hrole] at h
    obtain ⟨hown, rfl, _⟩ := gives_fillMemberFields.mp h
    constructor
    · constructor <;> rw [hrole] <;> simp
    · exact ⟨fun _ => hown, by simp [hrole], by simp [hrole], by simp [hrole]⟩
  | approver =>
    rw [hrole] at h
    obtain ⟨_, s₁, hmember, h⟩ := gives_bind.mp h
    obtain ⟨hown, rfl, rfl⟩ := gives_fillMemberFields.mp hmember
    obtain ⟨_, s₂, happrover, h⟩ := gives_bind.mp h
    obtain ⟨⟨hall, _⟩, rfl, rfl⟩ := gives_fillApproverFields.mp happrover
    obtain ⟨⟨summary, hmonths, rfl⟩, _⟩ := gives_fillMonthlySummary.mp h
    constructor
    · constructor <;> rw [hrole] <;> simp
    · exact ⟨fun _ => hown, fun _ => hall, by simp [hrole], fun _ => ⟨summary, hmonths⟩⟩
  | accounting =>
    rw [hrole] at h
    obtain ⟨_, s₁, hmember, h⟩ := gives_bind.mp h
    obtain ⟨hown, rfl, rfl⟩ := gives_fillMemberFields.mp hmember
    obtain ⟨_, s₂, haccounting, h⟩ := gives_bind.mp h
    obtain ⟨hall, rfl, rfl⟩ := gives_fillAccountingFields.mp haccounting
    obtain ⟨⟨summary, hmonths, rfl⟩, _⟩ := gives_fillMonthlySummary.mp h
    constructor
    · constructor <;> rw [hrole] <;> simp
    · exact ⟨fun _ => hown, fun _ => hall, by simp [hrole], fun _ => ⟨summary, hmonths⟩⟩
  | admin =>
    rw [hrole] at h
    obtain ⟨_, s₁, hadmin, h⟩ := gives_bind.mp h
    obtain ⟨⟨hall, hmembers⟩, rfl, rfl⟩ := gives_fillAdminFields.mp hadmin
    obtain ⟨⟨summary, hmonths, rfl⟩, _⟩ := gives_fillMonthlySummary.mp h
    constructor
    · constructor <;> rw [hrole] <;> simp
    · exact ⟨by simp [hrole], fun _ => hall, fun _ => hmembers, fun _ => ⟨summary, hmonths⟩⟩

/-- And if they can be told, it does. -/
theorem exists_getDashboard (h : Countable actor d clock) : ∃ data n',
    GivesAlone env (DashboardService.getDashboard actor) (.inside db clock d n) data (.inside db clock d n') := by
  -- Each part is filled in, whatever was filled in before.
  have hmember : ∀ data n, actor.role ≠ .admin → ∃ data' n', GivesAlone env
      (DashboardService.fillMemberFields actor.tenantID actor.userID data) (.inside db clock d n) data'
        (.inside db clock d n') :=
    fun data n hrole => ⟨_, _, gives_fillMemberFields.mpr ⟨h.own hrole, rfl, rfl⟩⟩
  have hmonths : ∀ data n, actor.role ≠ .member → ∃ data' n', GivesAlone env
      (DashboardService.fillMonthlySummary actor.tenantID data) (.inside db clock d n) data'
        (.inside db clock d n') := by
    intro data n hrole
    obtain ⟨summary, hsummary⟩ := h.months hrole
    exact ⟨_, _, gives_fillMonthlySummary.mpr ⟨⟨summary, hsummary, rfl⟩, rfl⟩⟩
  unfold DashboardService.getDashboard
  cases hrole : actor.role with
  | member => exact hmember _ _ (by simp [hrole])
  | approver =>
    obtain ⟨data₁, n₁, h₁⟩ := hmember default n (by simp [hrole])
    have happrover : ∃ data' n', GivesAlone env (DashboardService.fillApproverFields actor.tenantID
        actor.userID data₁) (.inside db clock d n₁) data' (.inside db clock d n') :=
      ⟨_, _, gives_fillApproverFields.mpr
        ⟨⟨h.tenant (by simp [hrole]), h.own (by simp [hrole])⟩, rfl, rfl⟩⟩
    obtain ⟨data₂, n₂, h₂⟩ := happrover
    obtain ⟨data₃, n₃, h₃⟩ := hmonths data₂ n₂ (by simp [hrole])
    exact ⟨data₃, n₃, gives_bind.mpr ⟨_, _, h₁, gives_bind.mpr ⟨_, _, h₂, h₃⟩⟩⟩
  | accounting =>
    obtain ⟨data₁, n₁, h₁⟩ := hmember default n (by simp [hrole])
    have haccounting : ∃ data' n', GivesAlone env (DashboardService.fillAccountingFields actor.tenantID
        data₁) (.inside db clock d n₁) data' (.inside db clock d n') :=
      ⟨_, _, gives_fillAccountingFields.mpr ⟨h.tenant (by simp [hrole]), rfl, rfl⟩⟩
    obtain ⟨data₂, n₂, h₂⟩ := haccounting
    obtain ⟨data₃, n₃, h₃⟩ := hmonths data₂ n₂ (by simp [hrole])
    exact ⟨data₃, n₃, gives_bind.mpr ⟨_, _, h₁, gives_bind.mpr ⟨_, _, h₂, h₃⟩⟩⟩
  | admin =>
    have hadmin : ∃ data' n', GivesAlone env (DashboardService.fillAdminFields actor.tenantID default)
        (.inside db clock d n) data' (.inside db clock d n') :=
      ⟨_, _, gives_fillAdminFields.mpr ⟨⟨h.tenant (by simp [hrole]), h.members hrole⟩, rfl, rfl⟩⟩
    obtain ⟨data₁, n₁, h₁⟩ := hadmin
    obtain ⟨data₂, n₂, h₂⟩ := hmonths data₁ n₁ (by simp [hrole])
    exact ⟨data₂, n₂, gives_bind.mpr ⟨_, _, h₁, h₂⟩⟩

end

end ExpenseSaas
