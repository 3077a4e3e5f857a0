import ExpenseSaas.Alone.Dashboards
import ExpenseSaas.Workflow.Parents

/-!
# The dashboard and the lists

The dashboard counts rows by status, the lists count what their `WHERE` selects,
and the two work lists join the owner to every report. That they agree rests on
every report having its owner, as the foreign key demands (`owned_view`).

`Agrees` says how they should: each number of the dashboard is the total of a
list, and the one for an approver is the number of entries that are not the
approver's own on all pages of the pending reports. The last is the difference:
pages are counted one by one, so the number is only right if no page ends among
reports that tie and of which some are the approver's own and some are not
(`agrees_iff`).
-/

namespace ExpenseSaas

open ReadCommitted Sql Paging

/-! ## Lists and numbers -/

namespace Listing

/-- The actor's own reports in this status. -/
def ownIn (s : ReportStatus) : Listing := .myReports ⟨none, some s, none, none, none, 0, 0⟩

/-- The reports of the tenant in this status. -/
def allIn (s : ReportStatus) : Listing := .allReports ⟨none, some s, none, none, none, 0, 0⟩

/-- The reports of the tenant, unfiltered. -/
def all : Listing := .allReports ⟨none, none, none, none, none, 0, 0⟩

/-- What waits for approval, unfiltered. -/
def pending : Listing := .pendingReports ⟨none, 0, 0⟩

/-- What waits for payment, unfiltered. -/
def payable : Listing := .payableReports ⟨none, 0, 0⟩

end Listing

section

variable {env : Nat → Oracle} {d d' : Database} {actor : Actor} {lower : Char → Char} {k i n : Nat}
  {rows : List ExpenseReport} {total : Int} {data : DashboardData} {p : Payload}

/-- Both ways to select are a filter of the same rows. -/
theorem number_eq_length {t : UUID} {u : Option UUID} {s : ReportStatus} {select : ExpenseReport → Bool}
    (h : ∀ r ∈ d.reports.rows, (mine t u r && decide (r.status = s)) = select r) :
    d.number t u s = (reportRows.filter select d).length := by
  unfold Database.number
  rw [List.countP_eq_length_filter]
  show ((d.reports.rows.filter _).filter _).length = (d.reports.rows.filter _).length
  rw [List.filter_filter]
  refine congrArg List.length (List.filter_congr fun r hr => ?_)
  rw [← h r hr, Bool.and_comm]

theorem length_ownIn (s : ReportStatus) : ((Listing.ownIn s).rows actor lower d).length =
    d.number actor.tenantID (some actor.userID) s := by
  refine (number_eq_length fun r _ => ?_).symm
  simp only [mine, Listing.ownIn, Listing.selects, ListReportsParams.selects, given, Option.all_some,
    Option.all_none, Bool.and_true]
  cases decide (r.tenantID = actor.tenantID) <;> cases r.deletedAt.isNone <;>
    cases decide (r.userID = actor.userID) <;> simp

theorem length_allIn (s : ReportStatus) : ((Listing.allIn s).rows actor lower d).length =
    d.number actor.tenantID none s := by
  refine (number_eq_length fun r _ => ?_).symm
  simp only [mine, Listing.allIn, Listing.selects, ListReportsParams.selects, given, Option.all_some,
    Option.all_none, Bool.and_true]

/-- With its owner there a report is not lost in the join. -/
theorem selects_of_owned {r : ExpenseReport} (howned : Owned d) (hr : r ∈ d.reports.rows) {t : UUID}
    {s : ReportStatus} {o : Oracle} : (mine t none r && decide (r.status = s)) =
      ListWorkflowParams.selects ⟨t, 0, 0, none⟩ s d o r := by
  unfold ListWorkflowParams.selects
  cases hfind : d.users.find r.userID with
  | none =>
    have hsome := howned r hr
    rw [hfind] at hsome
    cases hsome
  | some u =>
    simp only [mine, given, Option.all_none, Bool.and_true]
    cases decide (r.tenantID = t) <;> cases r.deletedAt.isNone <;> simp

theorem length_pending (howned : Owned d) : (Listing.pending.rows actor lower d).length =
    d.number actor.tenantID none .submitted :=
  (number_eq_length fun _ hr => selects_of_owned howned hr).symm

theorem length_payable (howned : Owned d) : (Listing.payable.rows actor lower d).length =
    d.number actor.tenantID none .approved :=
  (number_eq_length fun _ hr => selects_of_owned howned hr).symm

/-- The number without a status is that of all of them together. -/
theorem length_all : (Listing.all.rows actor lower d).length =
    d.number actor.tenantID none .draft + d.number actor.tenantID none .submitted +
    d.number actor.tenantID none .approved + d.number actor.tenantID none .rejected +
    d.number actor.tenantID none .paid := by
  have hrows : Listing.all.rows actor lower d = reportRows.filter (mine actor.tenantID none) d := by
    refine List.filter_congr fun r _ => ?_
    simp only [mine, Listing.all, Listing.selects, ListReportsParams.selects, given, Option.all_none,
      Bool.and_true]
  rw [hrows]
  unfold Database.number
  induction reportRows.filter (mine actor.tenantID none) d with
  | nil => rfl
  | cons r rows ih =>
    simp only [List.length_cons, List.countP_cons, ih]
    cases r.status <;> simp <;> omega

/-! ## Totals -/

/-- The list is answered, and every page of it says that there are `n` reports. -/
structure Totals (lower : Char → Char) (actor : Actor) (d : Database) (L : Listing) (n : Int) : Prop where
  answered : ∀ (env : Nat → Oracle) (k : Nat), 1 ≤ k → k ≤ 100 → (∀ m, (env m).lower = lower) →
    ∃ p, server.serve env (.tenant actor (L.request 1 k)) d = (.ok p, d) ∧ p.listed.isSome = true
  total : ∀ (env : Nat → Oracle) (k i : Nat) (p : Payload) (d' : Database) (ids : List UUID)
    (pg : Pagination), 1 ≤ k → k ≤ 100 → (∀ m, (env m).lower = lower) →
    server.serve env (.tenant actor (L.request (i + 1) k)) d = (.ok p, d') → p.listed = some (ids, pg) →
    pg.totalCount = n

/-- **The total is the number of rows**, and is told when it fits. -/
theorem totals_iff {L : Listing} (hrole : actor.role ∈ L.roles) (hread : L.readable = true) {n : Int} :
    Totals lower actor d L n ↔
      (L.rows actor lower d).length < 2 ^ 31 ∧ n = (L.rows actor lower d).length := by
  have hlowering : ∀ m : Nat, ((fun _ => lowering lower : Nat → Oracle) m).lower = lower := fun _ => rfl
  constructor
  · intro h
    obtain ⟨p, hp, hlisted⟩ := h.answered (fun _ => lowering lower) 1 (by omega) (by omega) hlowering
    have hsmall := (small_of_serve (i := 0) (by omega) (by omega) hlowering hp).2
    obtain ⟨p', hp', hlisted'⟩ := serve_listing (d := d) (k := 1) (i := 0) hrole (by omega) (by omega) hlowering
      hread hsmall (by omega)
    exact ⟨hsmall, (h.total _ 1 0 p' d _ _ (by omega) (by omega) hlowering hp' hlisted').symm⟩
  · rintro ⟨hsmall, rfl⟩
    constructor
    · intro env k hk hk' hlower
      obtain ⟨p, hp, hlisted⟩ := serve_listing (d := d) (i := 0) hrole hk hk' hlower hread hsmall (by omega)
      exact ⟨p, hp, by rw [hlisted]; rfl⟩
    · intro env k i p d' ids pg hk hk' hlower hserve hlisted
      obtain ⟨rows, total, hanswers, hlisted'⟩ := answers_of_serve hk hk' hlower hserve
      cases hlisted.symm.trans hlisted'
      exact (count_eq_ok.mp hanswers.count).2

/-! ## The pages of what is pending -/

/-- The entry for a report that is pending. -/
def pendingEntry (actor : Actor) (r : ExpenseReport) (u : Option UserSummary) : PendingReport where
  id := r.reportID
  title := r.title
  totalAmount := r.totalAmount
  submittedAt := r.submittedAt.getD default
  submitter := u.getD default
  isOwnReport := r.userID = actor.userID

/-- What a request for a page of the pending reports answers about whose they are. -/
theorem serve_pending (hrole : actor.role ∈ Listing.pending.roles) (hk : 1 ≤ k) (hk' : k ≤ 100)
    (hlower : ∀ m, (env m).lower = lower)
    (h : Listing.pending.Answers actor lower d (env 2).rank k i rows total) :
    ∃ l, server.serve env (.tenant actor (Listing.pending.request (i + 1) k)) d =
        (.ok (.pending l (buildPagination total (i + 1) k)), d) ∧
      l.map PendingReport.isOwnReport = rows.map fun r => decide (r.userID = actor.userID) := by
  have hentry : ∀ r u, PendingReport.isOwnReport (pendingEntry actor r u) = decide (r.userID = actor.userID) :=
    fun _ _ => rfl
  obtain ⟨l, n', hgives, hown⟩ := gives_listService .pending "workflowService.ListPendingReports" hk hk'
    hlower (gives_names hentry rows) h
  exact ⟨l, serve_tenant.mpr ⟨roles_request ▸ hrole, _, hgives, rfl⟩, hown⟩

/-- All pages of the pending reports, each asked for in surroundings of its own. -/
structure PendingPages (env : Nat → Nat → Oracle) (actor : Actor) (k : Nat) (d : Database) (T : Nat)
    (pages : Nat → List PendingReport) : Prop where
  pos : 0 < T
  answered : ∀ i < T, ∃ pg d', server.serve (env i) (.tenant actor (Listing.pending.request (i + 1) k)) d =
    (.ok (.pending (pages i) pg), d') ∧ pg.totalPages = T

/-- How many entries of a page are not the actor's own. -/
def others (l : List PendingReport) : Nat := l.countP fun r => !r.isOwnReport

/-- The report is another's. -/
def another (actor : Actor) (r : ExpenseReport) : Bool := r.userID ≠ actor.userID

/-- The entries of others are those of the rows of others. -/
theorem others_eq {l : List PendingReport}
    (h : l.map PendingReport.isOwnReport = rows.map fun r => decide (r.userID = actor.userID)) :
    others l = rows.countP (another actor) := by
  have hcount := congrArg (List.countP fun b => !b) h
  rw [List.countP_map, List.countP_map] at hcount
  unfold others another
  calc l.countP (fun r => !r.isOwnReport) = _ := hcount
    _ = _ := List.countP_congr fun r _ => by simp

/-- **What the pages are**: slices of what the queries arrange. -/
theorem spec_of_pendingPages {env : Nat → Nat → Oracle} {T : Nat} {pages : Nat → List PendingReport}
    (hrole : actor.role ∈ Listing.pending.roles) (hk : 1 ≤ k) (hk' : k ≤ 100)
    (hlower : ∀ i m, (env i m).lower = lower)
    (hcount : (Listing.pending.rows actor lower d).length < 2 ^ 31) (h : PendingPages env actor k d T pages) :
    T = pageCount (Listing.pending.rows actor lower d).length k ∧ ∀ i < T, others (pages i) =
      (slice k i (Listing.pending.arranged actor lower d (env i 2).rank)).countP (another actor) := by
  have hpage : ∀ i < T, i * k < 2 ^ 31 → T = pageCount (Listing.pending.rows actor lower d).length k ∧
      others (pages i) =
        (slice k i (Listing.pending.arranged actor lower d (env i 2).rank)).countP (another actor) := by
    intro i hi hsmall
    obtain ⟨pg, d', hserve, hT⟩ := h.answered i hi
    have hanswers : Listing.pending.Answers actor lower d (env i 2).rank k i _ _ :=
      answers_of_small rfl hcount hsmall
    obtain ⟨l, hl, hown⟩ := serve_pending hrole hk hk' (hlower i) hanswers
    cases hserve.symm.trans hl
    rw [buildPagination_eq hk] at hT
    exact ⟨(Int.ofNat.inj hT).symm, others_eq hown⟩
  obtain ⟨_, _, hlast⟩ := pageCount_spec (N := (Listing.pending.rows actor lower d).length) hk
  have hT := (hpage 0 h.pos (by omega)).1
  refine ⟨hT, fun i hi => (hpage i hi ?_).2⟩
  have hstart := Nat.mul_le_mul_right k (Nat.le_sub_one_of_lt (hT ▸ hi))
  omega

/-- And there are such pages. -/
theorem exists_pendingPages {env : Nat → Nat → Oracle} (hrole : actor.role ∈ Listing.pending.roles)
    (hk : 1 ≤ k) (hk' : k ≤ 100) (hlower : ∀ i m, (env i m).lower = lower)
    (hcount : (Listing.pending.rows actor lower d).length < 2 ^ 31) :
    ∃ T pages, PendingPages env actor k d T pages := by
  obtain ⟨hpos, _, hlast⟩ := pageCount_spec (N := (Listing.pending.rows actor lower d).length) hk
  have hpage : ∀ i, ∃ l, i < pageCount (Listing.pending.rows actor lower d).length k →
      ∃ pg d', server.serve (env i) (.tenant actor (Listing.pending.request (i + 1) k)) d =
        (.ok (.pending l pg), d') ∧ pg.totalPages = pageCount (Listing.pending.rows actor lower d).length k := by
    intro i
    by_cases hi : i < pageCount (Listing.pending.rows actor lower d).length k
    · have hstart := Nat.mul_le_mul_right k (Nat.le_sub_one_of_lt hi)
      obtain ⟨l, hl, _⟩ := serve_pending hrole hk hk' (hlower i)
        (answers_of_small rfl hcount (Nat.lt_of_le_of_lt (Nat.le_trans hstart hlast) hcount))
      refine ⟨l, fun _ => ⟨_, _, hl, ?_⟩⟩
      rw [buildPagination_eq hk]
    · exact ⟨[], fun h => absurd h hi⟩
  choose pages hpages using hpage
  exact ⟨_, pages, hpos, hpages⟩

/-! ## Agreement -/

/-- **How the dashboard and the lists should agree**, with `k` reports a page. -/
structure Agrees (lower : Char → Char) (actor : Actor) (k : Nat) (d : Database) (data : DashboardData) :
    Prop where
  draft : actor.role ≠ .admin → ∃ n, data.myDraftCount = some n ∧ Totals lower actor d (.ownIn .draft) n
  submitted : actor.role ≠ .admin →
    ∃ n, data.mySubmittedCount = some n ∧ Totals lower actor d (.ownIn .submitted) n
  rejected : actor.role ≠ .admin →
    ∃ n, data.myRejectedCount = some n ∧ Totals lower actor d (.ownIn .rejected) n
  /-- The entries of others, on all pages, however each page breaks ties. -/
  pending : actor.role = .approver → ∃ n, data.pendingApprovalCount = some n ∧
    ∀ env : Nat → Nat → Oracle, (∀ i m, (env i m).lower = lower) →
      (∃ T pages, PendingPages env actor k d T pages) ∧
      ∀ T pages, PendingPages env actor k d T pages →
        (((List.range T).map fun i => others (pages i)).sum : Nat) = n
  payment : actor.role = .accounting →
    ∃ n, data.pendingPaymentCount = some n ∧ Totals lower actor d .payable n
  tenant : actor.role = .admin → ∃ draft submitted approved rejected paid,
    (data.tenantDraftCount = some draft ∧ Totals lower actor d (.allIn .draft) draft) ∧
    (data.tenantSubmittedCount = some submitted ∧ Totals lower actor d (.allIn .submitted) submitted) ∧
    (data.tenantApprovedCount = some approved ∧ Totals lower actor d (.allIn .approved) approved) ∧
    (data.tenantRejectedCount = some rejected ∧ Totals lower actor d (.allIn .rejected) rejected) ∧
    (data.tenantPaidCount = some paid ∧ Totals lower actor d (.allIn .paid) paid) ∧
    Totals lower actor d .all (draft + submitted + approved + rejected + paid)

/-- Surroundings that put the reports of others first among those that tie up to page `e`, and last from there on. -/
def favouring (lower : Char → Char) (actor : Actor) (d : Database) (e i _n : Nat) : Oracle :=
  { lowering lower with
    rank := fun k => if (d.reports.find k).any (another actor) = true ↔ i < e then 0 else 1 }

/-- The reports of others that are pending are all that are, less the actor's own. -/
theorem countP_another (howned : Owned d) : (Listing.pending.rows actor lower d).countP (another actor) +
    d.number actor.tenantID (some actor.userID) .submitted = d.number actor.tenantID none .submitted := by
  have hown : d.number actor.tenantID (some actor.userID) .submitted =
      (Listing.pending.rows actor lower d).countP fun r => r.userID = actor.userID := by
    unfold Listing.rows
    rw [List.countP_eq_length_filter]
    show _ = ((d.reports.rows.filter _).filter _).length
    rw [List.filter_filter]
    refine number_eq_length fun r hr => ?_
    have hselects : _ = Listing.pending.selects actor lower d r := selects_of_owned howned hr
    rw [← hselects]
    simp only [mine, given, Option.all_some, Option.all_none, Bool.and_true]
    cases decide (r.tenantID = actor.tenantID) <;> cases decide (r.userID = actor.userID) <;>
      cases r.deletedAt.isNone <;> simp
  have hlength : (Listing.pending.rows actor lower d).length = d.number actor.tenantID none .submitted :=
    length_pending howned
  rw [hown, ← hlength]
  induction Listing.pending.rows actor lower d with
  | nil => rfl
  | cons r rows ih =>
    rw [List.countP_cons, List.countP_cons, List.length_cons, ← ih]
    unfold another
    by_cases hr : r.userID = actor.userID <;> simp [hr] <;> omega

/-- **The pages count the reports of others** exactly when no page ends between reports that tie and are mixed. -/
theorem sum_others_iff (hrole : actor.role ∈ Listing.pending.roles) (hk : 1 ≤ k) (hk' : k ≤ 100)
    (hcount : (Listing.pending.rows actor lower d).length < 2 ^ 31) :
    (∀ env : Nat → Nat → Oracle, (∀ i m, (env i m).lower = lower) → ∀ T pages,
      PendingPages env actor k d T pages → ((List.range T).map fun i => others (pages i)).sum =
        (Listing.pending.rows actor lower d).countP (another actor)) ↔
    ∀ e, ¬ Mixed (byKeys Listing.pending.keys) (another actor) (Listing.pending.rows actor lower d) (e * k) := by
  obtain ⟨_, hall, _⟩ := pageCount_spec (N := (Listing.pending.rows actor lower d).length) hk
  have hsum : ∀ {env : Nat → Nat → Oracle} {T pages}, (∀ i m, (env i m).lower = lower) →
      PendingPages env actor k d T pages → T = pageCount (Listing.pending.rows actor lower d).length k ∧
      ((List.range T).map fun i => others (pages i)).sum = ((List.range T).map fun i =>
        (slice k i (Listing.pending.arranged actor lower d (env i 2).rank)).countP (another actor)).sum := by
    intro env T pages hlower hpages
    obtain ⟨hT, hothers⟩ := spec_of_pendingPages hrole hk hk' hlower hcount hpages
    refine ⟨hT, congrArg List.sum (List.map_congr_left fun i hi => ?_)⟩
    exact hothers i (List.mem_range.mp hi)
  constructor
  · intro h e hmix
    have hlower : ∀ i m, (favouring lower actor d e i m).lower = lower := fun _ _ => rfl
    obtain ⟨T, pages, hpages⟩ := exists_pendingPages hrole hk hk' hlower hcount
    have heq := h _ hlower T pages hpages
    obtain ⟨rfl, hsum⟩ := hsum hlower hpages
    have hfind : ∀ r ∈ Listing.pending.rows actor lower d, d.reports.find r.reportID = some r := fun r hr =>
      Table.mem_iff_find.mp (List.mem_of_mem_filter hr)
    -- Up to the edge the reports of others come first, and from there on last.
    have hlt := miscount_of_mixed (a := Listing.pending.arranged actor lower d (favouring lower actor d 1 0 2).rank)
      (c := Listing.pending.arranged actor lower d (favouring lower actor d 0 0 2).rank)
      totalPreorder_byKeys hall Listing.arranges_arranged Listing.arranges_arranged hmix
      (fun z hz w hw hpz hpw => by simp [favouring, hfind z hz, hfind w hw, hpz, hpw])
      (fun z hz w hw hpz hpw => by simp [favouring, hfind z hz, hfind w hw, hpz, hpw])
    have hsame : ∀ i, Listing.pending.arranged actor lower d (favouring lower actor d e i 2).rank =
        if i < e then Listing.pending.arranged actor lower d (favouring lower actor d 1 0 2).rank
        else Listing.pending.arranged actor lower d (favouring lower actor d 0 0 2).rank := by
      intro i
      split
      · rename_i hi
        simp [favouring, hi]
      · rename_i hi
        simp [favouring, hi]
    rw [hsum] at heq
    simp only [hsame] at heq
    omega
  · intro hedge env hlower T pages hpages
    obtain ⟨rfl, hsum⟩ := hsum hlower hpages
    rw [hsum]
    exact count_pages totalPreorder_byKeys (fun i _ => arranges_of_byRank Listing.arranges_arranged) hall hedge

/-- A dashboard is answered with what the service gives. -/
theorem gives_of_dashboard (h : server.serve env (.tenant actor .getDashboard) d = (.ok (.dashboard data), d')) :
    Shows actor d data ∧ Countable actor d (env 0) := by
  obtain ⟨_, s', hgives, _⟩ := serve_tenant.mp h
  obtain ⟨data', hdata, heq⟩ := gives_map.mp hgives
  cases heq
  exact getDashboard_alone hdata

/--
**The dashboard agrees with the lists** exactly when no page of what waits for an
approver ends between reports that tie, one the approver's own and one not. And
an administrator's numbers add up to a total as long as that fits.
-/
theorem agrees_iff (howned : Owned d) (hk : 1 ≤ k) (hk' : k ≤ 100)
    (h : server.serve env (.tenant actor .getDashboard) d = (.ok (.dashboard data), d')) :
    Agrees lower actor k d data ↔
      (actor.role = .approver → ∀ e, ¬ Mixed (byKeys Listing.pending.keys) (another actor)
        (Listing.pending.rows actor lower d) (e * k)) ∧
      (actor.role = .admin → (Listing.all.rows actor lower d).length < 2 ^ 31) := by
  obtain ⟨hshows, hcountable⟩ := gives_of_dashboard h
  -- The total of a list whose length is a number of the dashboard.
  have htotals : ∀ {L : Listing} {u : Option UUID} {s : ReportStatus}, actor.role ∈ L.roles →
      L.readable = true → (L.rows actor lower d).length = d.number actor.tenantID u s →
      NumbersFit d actor.tenantID u → Totals lower actor d L (d.number actor.tenantID u s : Int) := by
    intro L u s hrole hread hlength hfit
    have hsmall := hfit s
    rw [← hlength] at hsmall ⊢
    exact (totals_iff hrole hread).mpr ⟨hsmall, rfl⟩
  have hown : ∀ s, actor.role ≠ .admin →
      Totals lower actor d (.ownIn s) (d.number actor.tenantID (some actor.userID) s : Int) := by
    intro s hrole
    refine htotals ?_ rfl (length_ownIn s) (hcountable.own hrole)
    show actor.role ∈ [Role.member, .approver, .admin, .accounting]
    cases actor.role <;> decide
  have hall : ∀ s, actor.role = .admin →
      Totals lower actor d (.allIn s) (d.number actor.tenantID none s : Int) := by
    intro s hrole
    refine htotals ?_ rfl (length_allIn s) (hcountable.tenant (by simp [hrole]))
    show actor.role ∈ [Role.admin, .accounting]
    rw [hrole]
    decide
  have hsum : actor.role = .approver → ((∀ e, ¬ Mixed (byKeys Listing.pending.keys) (another actor)
      (Listing.pending.rows actor lower d) (e * k)) ↔ ∀ env : Nat → Nat → Oracle,
        (∀ i m, (env i m).lower = lower) → (∃ T pages, PendingPages env actor k d T pages) ∧
        ∀ T pages, PendingPages env actor k d T pages →
          (((List.range T).map fun i => others (pages i)).sum : Nat) =
            (d.number actor.tenantID none .submitted : Int) - d.number actor.tenantID (some actor.userID) .submitted) := by
    intro hrole
    have hroles : actor.role ∈ Listing.pending.roles := by
      rw [hrole]
      decide
    have hcount : (Listing.pending.rows actor lower d).length < 2 ^ 31 := by
      rw [length_pending howned]
      exact hcountable.tenant (by simp [hrole]) .submitted
    have hanother : (Listing.pending.rows actor lower d).countP (another actor) +
        d.number actor.tenantID (some actor.userID) .submitted = d.number actor.tenantID none .submitted :=
      countP_another howned
    rw [← sum_others_iff hroles hk hk' hcount]
    constructor
    · intro hpages env hlower
      refine ⟨exists_pendingPages hroles hk hk' hlower hcount, fun T pages hp => ?_⟩
      have := hpages env hlower T pages hp
      omega
    · intro hpages env hlower T pages hp
      have := (hpages env hlower).2 T pages hp
      omega
  constructor
  · intro hagrees
    constructor
    · intro hrole
      obtain ⟨n, hn, hpages⟩ := hagrees.pending hrole
      rw [hshows.pending hrole, Option.some.injEq] at hn
      exact (hsum hrole).mpr (hn ▸ hpages)
    · intro hrole
      obtain ⟨_, _, _, _, _, _, _, _, _, _, htotal⟩ := hagrees.tenant hrole
      refine ((totals_iff ?_ rfl).mp htotal).1
      rw [hrole]
      decide
  · rintro ⟨hedge, hfits⟩
    refine ⟨?_, ?_, ?_, ?_, ?_, ?_⟩
    · exact fun hrole => ⟨_, (hshows.own hrole).1, hown .draft hrole⟩
    · exact fun hrole => ⟨_, (hshows.own hrole).2.1, hown .submitted hrole⟩
    · exact fun hrole => ⟨_, (hshows.own hrole).2.2, hown .rejected hrole⟩
    · exact fun hrole => ⟨_, hshows.pending hrole, (hsum hrole).mp (hedge hrole)⟩
    · intro hrole
      refine ⟨_, hshows.payment hrole, htotals ?_ rfl (length_payable howned) ?_⟩
      · rw [hrole]
        decide
      · exact hcountable.tenant (by simp [hrole])
    · intro hrole
      obtain ⟨hdraft, hsubmitted, happroved, hrejected, hpaid⟩ := hshows.tenant hrole
      refine ⟨_, _, _, _, _, ⟨hdraft, hall _ hrole⟩, ⟨hsubmitted, hall _ hrole⟩, ⟨happroved, hall _ hrole⟩,
        ⟨hrejected, hall _ hrole⟩, ⟨hpaid, hall _ hrole⟩, ?_⟩
      refine (totals_iff (by rw [hrole]; decide) rfl).mpr ⟨hfits hrole, ?_⟩
      rw [length_all]
      omega

end

namespace Sample

/-- The owner's report, submitted. -/
def submitted : ExpenseReport :=
  { report with status := .submitted, submittedBy := some 20, submittedAt := some 7 }

/-- The approver's own, submitted at the same moment. -/
def ownSubmitted : ExpenseReport := { submitted with reportID := 3, userID := 21, submittedBy := some 21 }

/-- Both wait for approval. -/
def simultaneous : Database :=
  { database with reports := (database.reports.put submitted).put ownSubmitted }

end Sample

/-- The dashboard a response shows. -/
def shown : Outcome → Option DashboardData
  | .ok (.dashboard data) => some data
  | _ => none

theorem eq_of_shown {r : Outcome × Database} {data : DashboardData} (h : shown r.1 = some data) :
    r = (.ok (.dashboard data), r.2) := by
  obtain ⟨o, d⟩ := r
  cases o with
  | error e => cases h
  | ok p =>
    cases p <;> cases h
    rfl

/--
Five reports wait, one of them the approver's own: four are counted, and four of the
entries on three pages are of others. The own one ties with another on the second page.
-/
theorem agrees_of_desk : Owned Sample.desk ∧ ∃ data,
    shown (server.serve (fun _ => lowering id) (.tenant Sample.approver .getDashboard) Sample.desk).1 = some data ∧
      data.pendingApprovalCount = some 4 ∧ Agrees id Sample.approver 2 Sample.desk data := by
  have howned : Owned Sample.desk := by
    unfold Owned
    decide
  have hcount : (shown (server.serve (fun _ => lowering id) (.tenant Sample.approver .getDashboard)
    Sample.desk).1).bind DashboardData.pendingApprovalCount = some 4 := by decide +kernel
  obtain ⟨data, hdata, hfour⟩ := Option.bind_eq_some_iff.mp hcount
  refine ⟨howned, data, hdata, hfour,
    (agrees_iff howned (by decide) (by decide) (eq_of_shown hdata)).mpr ⟨?_, ?_⟩⟩
  · rintro _ e ⟨x, hx, y, hy, _, _, _, hbefore, hupTo⟩
    have hedges : ∀ e < (Listing.pending.rows Sample.approver id Sample.desk).length,
        ¬ Astride (byKeys Listing.pending.keys) (Listing.pending.rows Sample.approver id Sample.desk)
          (e * 2) := by decide
    exact not_astride_of_edges (by decide) hedges e ⟨x, hx, hbefore, hupTo⟩
  · intro hrole
    cases hrole

/--
**One report waits for the approver, and two are on the pages.** Two reports of
one moment, one of them the approver's own, one a page: the other's is first on
the first page and last on the second.
-/
theorem not_agrees_of_simultaneous : Owned Sample.simultaneous ∧
    listedIds (server.serve (favouring id Sample.approver Sample.simultaneous 1 0)
      (.tenant Sample.approver (Listing.pending.request 1 1)) Sample.simultaneous).1 = [1] ∧
    listedIds (server.serve (favouring id Sample.approver Sample.simultaneous 1 1)
      (.tenant Sample.approver (Listing.pending.request 2 1)) Sample.simultaneous).1 = [1] ∧
    ∃ data, shown (server.serve (fun _ => lowering id) (.tenant Sample.approver .getDashboard)
        Sample.simultaneous).1 = some data ∧
      data.pendingApprovalCount = some 1 ∧ ¬ Agrees id Sample.approver 1 Sample.simultaneous data := by
  have howned : Owned Sample.simultaneous := by
    unfold Owned
    decide
  obtain ⟨data, hdata⟩ := Option.isSome_iff_exists.mp (show (shown (server.serve (fun _ => lowering id)
    (.tenant Sample.approver .getDashboard) Sample.simultaneous).1).isSome = true by decide +kernel)
  have hone : data.pendingApprovalCount = some 1 := by
    have hcount : (shown (server.serve (fun _ => lowering id) (.tenant Sample.approver .getDashboard)
      Sample.simultaneous).1).bind DashboardData.pendingApprovalCount = some 1 := by decide +kernel
    rwa [hdata] at hcount
  refine ⟨howned, by decide +kernel, by decide +kernel, data, hdata, hone, fun hagrees => ?_⟩
  obtain ⟨n, hn, hpages⟩ := hagrees.pending rfl
  obtain rfl : 1 = n := Option.some.inj (hone.symm.trans hn)
  have hanother : (Listing.pending.rows Sample.approver id Sample.simultaneous).countP
      (another Sample.approver) = 1 := by decide
  have hmixed : Mixed (byKeys Listing.pending.keys) (another Sample.approver)
      (Listing.pending.rows Sample.approver id Sample.simultaneous) (1 * 1) :=
    ⟨Sample.submitted, by decide, Sample.ownSubmitted, by decide, by decide, by decide, by decide, by decide,
      by decide⟩
  have hroles : Sample.approver.role ∈ Listing.pending.roles := by decide
  have hsmall : (Listing.pending.rows Sample.approver id Sample.simultaneous).length < 2 ^ 31 := by decide
  have hk : (1 : Nat) ≤ 1 := by decide
  refine (sum_others_iff hroles hk (by decide) hsmall).mp (fun env hlower T pages hp => ?_) 1 hmixed
  have := (hpages env hlower).2 T pages hp
  omega

end ExpenseSaas
