import ExpenseSaas.Alone.Agreement
import ExpenseSaas.Alone.Months
import ExpenseSaas.Workflow.Pending

/-!
# When the dashboard is there

A dashboard counts and adds up, and what it tells has to fit an `INTEGER`. Nothing
bounds what a tenant pays in a month, so the sum of a month can outgrow that, and
then there is no dashboard for anybody who would see it.

That is all that can go wrong while the database is up: a statement of a dashboard
is answered if what it counts or adds up can be told (`answered_of_tellable`), so
the invariant of a session is that everything has been answered so far.
-/

namespace ExpenseSaas

open ReadCommitted Sql

/-! ## What can be told -/

/-- The sums of the months from the last `n` on fit, and the month they start with can be told. -/
structure SumsFit (d : Database) (t : UUID) (u : Option UUID) (today : Date) (n : Int) : Prop where
  told : firstMonth ≤ today.monthIndex - (n - 1) ∧ today.monthIndex - (n - 1) ≤ lastMonth
  fits : ∀ r ∈ d.paid t u, today.monthIndex - (n - 1) ≤ r.periodStart.monthIndex →
    FitsInt4 (d.paidIn t u r.periodStart.monthIndex)

/-- What the statement of a dashboard counts or adds up can be told. -/
def Sql.Stmt.Tellable (d : Database) (today : Date) : Stmt → Prop
  | .countReportsByStatus t => NumbersFit d t none
  | .countMyReportsByStatus t u => NumbersFit d t (some u)
  | .countMembersByTenantID t => (membershipRows.filter (fun m => m.tenantID = t) d).length < 2 ^ 31
  | .monthlySummaryAll t n => SumsFit d t none today n
  | _ => True

/-- The statement is one of those a dashboard is made of. -/
def Sql.Stmt.ofDashboard : Stmt → Prop
  | .setCurrentTenant _ => True
  | .countReportsByStatus _ => True
  | .countMyReportsByStatus _ _ => True
  | .countMembersByTenantID _ => True
  | .listRecentReports _ _ limit => limit = 5
  | .monthlySummaryAll _ n => n = 3
  | _ => False

section

variable {d : Database} {clock o : Oracle} {t : UUID} {u : Option UUID} {n : Int} {q : Stmt}

theorem exists_monthlySummary (hn : FitsInt4 (n - 1)) :
    (∃ out, Sql.monthlySummary t u n d clock = .ok out) ↔ SumsFit d t u clock.today n := by
  constructor
  · rintro ⟨out, hout⟩
    obtain ⟨since, hsince, hfits, _⟩ := monthlySummary_eq_ok.mp hout
    obtain ⟨rfl, _, htold⟩ := sinceMonth_eq_ok.mp hsince
    refine ⟨htold, fun r hr hle => hfits _ ?_⟩
    exact mem_months_paidSince.mpr ⟨hle, r, hr, rfl⟩
  · intro h
    refine ⟨_, monthlySummary_eq_ok.mpr ⟨_, sinceMonth_eq_ok.mpr ⟨rfl, hn, h.told⟩, fun m hm => ?_, rfl⟩⟩
    obtain ⟨hle, r, hr, rfl⟩ := mem_months_paidSince.mp hm
    exact h.fits r hr hle

/-- **What can be told is answered.** -/
theorem answered_of_tellable (hq : q.ofDashboard) (h : q.Tellable d clock.today) :
    ∃ read r, q.sem = .query read ∧ read d clock o = .ok r := by
  cases q with
  | setCurrentTenant t => exact ⟨_, _, rfl, rfl⟩
  | countReportsByStatus t => exact ⟨_, _, rfl, countByStatus_eq_ok.mpr ⟨h, rfl⟩⟩
  | countMyReportsByStatus t u => exact ⟨_, _, rfl, countByStatus_eq_ok.mpr ⟨h, rfl⟩⟩
  | countMembersByTenantID t => exact ⟨_, _, rfl, count_eq_ok.mpr ⟨h, rfl⟩⟩
  | listRecentReports t u limit =>
    have hlimit : limit = 5 := hq
    subst hlimit
    refine ⟨_, d.recent t u o.rank, rfl, ?_⟩
    show Sql.pageOf 5 0 (fun r => desc r.updatedAt) o (reportRows.filter (mine t (some u)) d) = _
    unfold Sql.pageOf Sql.page
    rw [if_neg (by decide)]
    rfl
  | monthlySummaryAll t n =>
    have hn : n = 3 := hq
    subst hn
    obtain ⟨out, hout⟩ := (exists_monthlySummary (by constructor <;> decide)).mpr h
    exact ⟨_, out, rfl, hout⟩
  | _ => exact hq.elim

end

/-! ## The code -/

/-- The command was answered without an error. -/
def Unfailed : (c : Command) → Command.Resp c → Prop
  | .begin, r => ∃ a, r = .ok a
  | .commit, r => ∃ a, r = .ok a
  | .rollback, _ => True
  | .sql _, r => ∃ a, r = .ok a
  | .ext _, _ => True

/-- A dashboard is made of its statements, and relies on their being answered. -/
def dashboardContract : Contract Command Command.Resp where
  asks _ c := match c with
    | .sql q => q.ofDashboard
    | .ext _ => False
    | _ => True
  gets _ := Unfailed

/-- As long as everything is answered, the service has a result. -/
def Succeeds {α : Type} (x : Service α) : Prop :=
  ∀ tr, Svc.ends dashboardContract tr x fun _ r => ∃ a, r = .ok a

section

variable {α β : Type} {t u : UUID} {data : DashboardData} {actor : Actor}

theorem succeeds_pure {a : α} : Succeeds (pure a : Service α) := fun _ => ⟨a, rfl⟩

theorem succeeds_bind {x : Service α} {f : α → Service β} (hx : Succeeds x) (hf : ∀ a, Succeeds (f a)) :
    Succeeds (x >>= f) := by
  intro tr
  refine Svc.ends_bind.mpr (Svc.ends_mono (hx tr) fun tr' r hr => ?_)
  obtain ⟨a, rfl⟩ := hr
  exact hf a tr'

theorem succeeds_errorf {context : String} {x : Service α} (hx : Succeeds x) : Succeeds (errorf context x) := by
  intro tr
  refine Svc.ends_mapError.mpr (Svc.ends_mono (hx tr) fun tr' r hr => ?_)
  obtain ⟨a, rfl⟩ := hr
  exact ⟨a, rfl⟩

theorem succeeds_sql {q : Stmt} (hq : q.ofDashboard) : Succeeds (sql q) := by
  intro tr
  refine Svc.ends_bind.mpr (Svc.ends_call.mpr ⟨hq, fun r hr => ?_⟩)
  obtain ⟨a, rfl⟩ := hr
  exact ⟨a, rfl⟩

theorem succeeds_countByStatus {u : Option UUID} : Succeeds (ReportRepo.countByStatus t u) := by
  refine succeeds_bind (succeeds_errorf ?_) fun rows => succeeds_pure
  cases u with
  | none => exact succeeds_sql trivial
  | some u => exact succeeds_sql trivial

theorem succeeds_fillMemberFields : Succeeds (DashboardService.fillMemberFields t u data) := by
  have hfive : int32 5 = 5 := (int32_eq_self (by decide)).mpr (by decide)
  refine succeeds_bind (succeeds_errorf succeeds_countByStatus) fun counts => ?_
  exact succeeds_bind (succeeds_errorf (succeeds_errorf (succeeds_sql hfive))) fun recent => succeeds_pure

theorem succeeds_fillMonthlySummary : Succeeds (DashboardService.fillMonthlySummary t data) := by
  have hthree : int32 3 = 3 := (int32_eq_self (by decide)).mpr (by decide)
  exact succeeds_bind (succeeds_errorf (succeeds_errorf (succeeds_sql hthree))) fun summary => succeeds_pure

theorem succeeds_getDashboard : Succeeds (DashboardService.getDashboard actor) := by
  unfold DashboardService.getDashboard
  cases actor.role with
  | member => exact succeeds_fillMemberFields
  | approver =>
    refine succeeds_bind succeeds_fillMemberFields fun data₁ => ?_
    refine succeeds_bind ?_ fun data₂ => succeeds_fillMonthlySummary
    refine succeeds_bind (succeeds_errorf succeeds_countByStatus) fun all => ?_
    exact succeeds_bind (succeeds_errorf succeeds_countByStatus) fun own => succeeds_pure
  | accounting =>
    refine succeeds_bind succeeds_fillMemberFields fun data₁ => ?_
    refine succeeds_bind ?_ fun data₂ => succeeds_fillMonthlySummary
    exact succeeds_bind (succeeds_errorf succeeds_countByStatus) fun all => succeeds_pure
  | admin =>
    refine succeeds_bind ?_ fun data₂ => succeeds_fillMonthlySummary
    refine succeeds_bind (succeeds_errorf succeeds_countByStatus) fun all => ?_
    refine succeeds_bind (succeeds_errorf (succeeds_errorf (succeeds_sql trivial))) fun members => ?_
    exact succeeds_pure

/-- The answer is a dashboard. -/
def IsDashboard (a : Outcome) : Prop := ∃ data, a = .ok (.dashboard data)

/-- Every role sees a dashboard. -/
theorem role_getDashboard : actor.role ∈ Endpoint.getDashboard.roles := by
  show actor.role ∈ [Role.member, .approver, .admin, .accounting]
  cases actor.role <;> decide

/-- **The code of a dashboard**, in its transaction. -/
theorem wp_answered : Prog.wp dashboardContract [] (server.code (.tenant actor .getDashboard))
    fun _ => IsDashboard := by
  have hservice : ∀ tr, Prog.wp dashboardContract tr (requireRole actor Endpoint.getDashboard.roles
      (Endpoint.getDashboard.service actor)).run fun _ => IsDashboard := by
    intro tr
    unfold requireRole
    rw [if_pos role_getDashboard]
    refine Svc.ends_bind.mpr (Svc.ends_mono (succeeds_getDashboard tr) fun tr' r hr => ?_)
    obtain ⟨data, rfl⟩ := hr
    exact ⟨data, rfl⟩
  show Prog.wp dashboardContract [] (tenantContext actor.tenantID Endpoint.getDashboard.responder _) _
  unfold tenantContext issue
  rw [Prog.wp_bind, Prog.wp_call]
  refine ⟨trivial, fun b hb => ?_⟩
  obtain ⟨b, rfl⟩ := hb
  refine Prog.wp_bind.mpr (Prog.wp_call.mpr ⟨trivial, fun r hr => ?_⟩)
  obtain ⟨r, rfl⟩ := hr
  refine Prog.wp_bind.mpr (Prog.wp_mono (hservice _) fun tr a ha => ?_)
  obtain ⟨data, rfl⟩ := ha
  have hstatus : statusOf Endpoint.getDashboard.responder (.ok (.dashboard data)) < 400 :=
    show (200 : Nat) < 400 by decide
  rw [if_pos hstatus]
  refine ⟨trivial, fun c hc => ?_⟩
  obtain ⟨c, rfl⟩ := hc
  exact ⟨data, rfl⟩

end

/-! ## Runs -/

/--
The database is up where a dashboard needs it: nothing a dashboard issues fails
from outside, and what its next statement counts or adds up can be told.
-/
def DashboardsUp (w : World server) : Action server → Prop
  | .fail i _ => ∀ s actor, w.sessions[i]? = some s → s.call ≠ .tenant actor .getDashboard
  | .step i _ => ∀ s actor q k t, w.sessions[i]? = some s → s.call = .tenant actor .getDashboard →
      s.prog = .exec (.sql q) k → s.txn = some t → q.Tellable w.db t.clock.today
  | _ => True

/-- Where a dashboard is: everything has been answered, and nothing written. -/
structure Answering (s : Session server) : Prop where
  code : Prog.wp dashboardContract s.trace s.prog fun _ => IsDashboard
  txn : ∀ t, s.txn = some t → t.failed = false ∧ t.writes = []
  pending : s.pending = none

section

variable {d d₀ : Database} {w : World server} {i : Nat} {s s' : Session server} {others : List Version}
  {o : Oracle} {d' : Option Database}

/-- One answer. -/
theorem Answering.answered (h : Answering s) {c : Command} {k : Command.Resp c → Program Outcome}
    (hp : s.prog = .exec c k) {r : Command.Resp c} (hr : Unfailed c r) {s' : Session server}
    (hp' : s'.prog = k r) (htr : s'.trace = s.trace ++ [⟨c, r⟩]) (hpending : s'.pending = none)
    (htxn : ∀ t, s'.txn = some t → t.failed = false ∧ t.writes = []) : Answering s' := by
  have hcode := h.code
  rw [hp, Prog.wp_exec] at hcode
  refine ⟨?_, htxn, hpending⟩
  rw [hp', htr]
  exact hcode.2 r hr

/-- **A step of a dashboard**, where what it asks can be told. -/
theorem Answering.move (h : Answering s) (hm : Move d others o s s' d')
    (htell : ∀ q k t, s.prog = .exec (.sql q) k → s.txn = some t → q.Tellable d t.clock.today) :
    Answering s' := by
  -- A statement is a query, is run in a transaction that has not failed, and is answered.
  have hquery : ∀ {q k t}, s.prog = .exec (.sql q) k → s.txn = some t →
      ∃ read r, server.sem q = .query read ∧ read (s.view d) t.clock o = .ok r := by
    intro q k t hp ht
    have hask := h.code
    rw [hp, Prog.wp_exec] at hask
    have hview : s.view d = d := by
      refine Session.view_of_writes_nil ?_
      rw [Session.writes_of_txn ht]
      exact (h.txn t ht).2
    rw [hview]
    exact answered_of_tellable hask.1 (htell q k t hp ht)
  have hsound : ∀ {t}, s.txn = some t → t.failed ≠ true := by
    intro t ht hf
    rw [(h.txn t ht).1] at hf
    cases hf
  cases hm with
  | begin hp ht =>
    refine h.answered hp ⟨(), rfl⟩ rfl rfl rfl fun t ht' => ?_
    cases ht'
    exact ⟨rfl, rfl⟩
  | commit hp ht hf => exact h.answered hp ⟨true, rfl⟩ rfl rfl rfl fun t ht' => by cases ht'
  | abandon hp ht hf => exact absurd hf (hsound ht)
  | rollback hp => exact h.answered hp trivial rfl rfl rfl fun t ht' => by cases ht'
  | ext hp => exact h.answered hp trivial rfl rfl rfl h.txn
  | barred hp ht hf => exact absurd hf (hsound ht)
  | query hp ht hf hq hr => exact h.answered hp ⟨_, rfl⟩ rfl rfl rfl h.txn
  | refused hp ht hf hr =>
    obtain ⟨read, r, hsem, hread⟩ := hquery hp ht
    cases hr with
    | query hq he =>
      cases hsem.symm.trans hq
      cases hread.symm.trans he
    | row hq he => cases hsem.symm.trans hq
    | unique hq hr hu => cases hsem.symm.trans hq
    | apply hq hpe hto hl ha => cases hsem.symm.trans hq
  | insert hp ht hf hq hr hu hc =>
    obtain ⟨read, r, hsem, _⟩ := hquery hp ht
    cases hsem.symm.trans hq
  | snapshot hp ht hf hq hpe =>
    obtain ⟨read, r, hsem, _⟩ := hquery hp ht
    cases hsem.symm.trans hq
  | skip hp ht hf hq hpe hto hl ha =>
    obtain ⟨read, r, hsem, _⟩ := hquery hp ht
    cases hsem.symm.trans hq
  | write hp ht hf hq hpe hto hl ha =>
    obtain ⟨read, r, hsem, _⟩ := hquery hp ht
    cases hsem.symm.trans hq
  | finish hp ht hf hq hpe hto =>
    obtain ⟨read, r, hsem, _⟩ := hquery hp ht
    cases hsem.symm.trans hq

/-- **Every dashboard under way**, in every run. -/
theorem answering (h : Reachable DashboardsUp (.init d₀) w) (hs : w.sessions[i]? = some s) {actor : Actor}
    (hcall : s.call = .tenant actor .getDashboard) : Answering s := by
  refine h.each_session (P := fun (s : Session server) => ∀ actor,
    s.call = .tenant actor .getDashboard → Answering s)
    ?_ ?_ ?_ ?_ hs actor hcall
  · intro c actor hcall
    cases hcall
    exact ⟨wp_answered, fun t ht => (by cases ht), rfl⟩
  · intro w i o s s' d' hw hc hs hm hP actor hcall
    rw [hm.told.call_eq] at hcall
    exact (hP actor hcall).move hm fun q k t hp ht => hc s actor q k t hs hcall hp ht
  · intro w i e s s' hw hc hs hb hP actor hcall
    rw [(hb.told (d := w.db)).call_eq] at hcall
    exact absurd hcall (hc s actor hs)
  · intro w i s s' hw hc hs hstuck hb hP actor hcall
    rw [(hb.told (d := w.db)).call_eq] at hcall
    -- A dashboard never waits for a row.
    unfold Session.stuck at hstuck
    rw [(hP actor hcall).pending] at hstuck
    cases hstuck

end

/-! ## One state -/

/-- What is on the dashboard of the actor can be told. -/
structure Displayable (actor : Actor) (d : Database) (today : Date) : Prop where
  own : actor.role ≠ .admin → NumbersFit d actor.tenantID (some actor.userID)
  tenant : actor.role ≠ .member → NumbersFit d actor.tenantID none
  members : actor.role = .admin →
    (membershipRows.filter (fun m => m.tenantID = actor.tenantID) d).length < 2 ^ 31
  months : actor.role ≠ .member → SumsFit d actor.tenantID none today 3

theorem countable_iff {actor : Actor} {d : Database} {clock : Oracle} :
    Countable actor d clock ↔ Displayable actor d clock.today := by
  have hmonths : (∃ summary, Sql.monthlySummary actor.tenantID none 3 d clock = .ok summary) ↔
      SumsFit d actor.tenantID none clock.today 3 := exists_monthlySummary (by constructor <;> decide)
  constructor
  · intro h
    exact ⟨h.own, h.tenant, h.members, fun hrole => hmonths.mp (h.months hrole)⟩
  · intro h
    exact ⟨h.own, h.tenant, h.members, fun hrole => hmonths.mpr (h.months hrole)⟩

/-- **A dashboard by itself** is answered exactly when what is on it can be told. -/
theorem serve_dashboard {env : Nat → Oracle} {actor : Actor} {d : Database} :
    (∃ data, server.serve env (.tenant actor .getDashboard) d = (.ok (.dashboard data), d)) ↔
      Displayable actor d (env 0).today := by
  rw [← countable_iff]
  constructor
  · rintro ⟨data, h⟩
    exact (gives_of_dashboard h).2
  · intro h
    obtain ⟨data, n', hgives⟩ : ∃ data n', GivesAlone env (DashboardService.getDashboard actor)
        (.inside d (env 0) d 2) data (.inside d (env 0) d n') := exists_getDashboard h
    exact ⟨data, serve_tenant.mpr ⟨role_getDashboard, _, gives_map.mpr ⟨data, hgives, rfl⟩, rfl⟩⟩

/--
**The dashboard is there**, in every run whose dashboards have nothing to tell that
they cannot tell: one that is done has data, however its statements fell among
what others did. And asked for in the state reached, it is there exactly when the
numbers and sums of that state can be told.
-/
theorem dashboard_available {d₀ : Database} {w : World server} (h : Reachable DashboardsUp (.init d₀) w) :
    (∀ (i : Nat) (s : Session server) (actor : Actor) (a : Outcome), w.sessions[i]? = some s →
      s.call = .tenant actor .getDashboard → s.prog = .ret a → ∃ data, a = .ok (.dashboard data)) ∧
    ∀ (actor : Actor) (env : Nat → Oracle),
      (∃ data, server.serve env (.tenant actor .getDashboard) w.db = (.ok (.dashboard data), w.db)) ↔
        Displayable actor w.db (env 0).today := by
  refine ⟨fun i s actor a hs hcall hp => ?_, fun actor env => serve_dashboard⟩
  have hcode := (answering h hs hcall).code
  rw [hp] at hcode
  exact hcode

/-! ## Two runs -/

section

variable {d : Database} {t : UUID} {u : Option UUID} {today : Date} {n : Int}

instance : Decidable (NumbersFit d t u) :=
  haveI : DecidablePred fun s => d.number t u s < 2 ^ 31 := fun _ => Nat.decLt _ _
  decidable_of_iff (∀ s ∈ [ReportStatus.draft, .submitted, .approved, .rejected, .paid], d.number t u s < 2 ^ 31)
    ⟨fun h s => h s (by cases s <;> decide), fun h s _ => h s⟩

instance : DecidablePred FitsInt4 := fun i => inferInstanceAs (Decidable (-2 ^ 31 ≤ i ∧ i < 2 ^ 31))

instance : Decidable (SumsFit d t u today n) :=
  haveI : DecidablePred fun r : ExpenseReport => today.monthIndex - (n - 1) ≤ r.periodStart.monthIndex →
    FitsInt4 (d.paidIn t u r.periodStart.monthIndex) := fun _ => inferInstance
  decidable_of_iff ((firstMonth ≤ today.monthIndex - (n - 1) ∧ today.monthIndex - (n - 1) ≤ lastMonth) ∧
      ∀ r ∈ d.paid t u, today.monthIndex - (n - 1) ≤ r.periodStart.monthIndex →
        FitsInt4 (d.paidIn t u r.periodStart.monthIndex))
    ⟨fun h => ⟨h.1, h.2⟩, fun h => ⟨h.told, h.fits⟩⟩

/-- The next statement of a dashboard can be answered. -/
def tellable (d : Database) (today : Date) : Stmt → Bool
  | .countReportsByStatus t => decide (NumbersFit d t none)
  | .countMyReportsByStatus t u => decide (NumbersFit d t (some u))
  | .countMembersByTenantID t => (membershipRows.filter (fun m => m.tenantID = t) d).length < 2 ^ 31
  | .monthlySummaryAll t n => decide (SumsFit d t none today n)
  | _ => true

theorem tellable_of_check {q : Stmt} (h : tellable d today q = true) : q.Tellable d today := by
  cases q with
  | countReportsByStatus t =>
    have hfit : NumbersFit d t none := of_decide_eq_true h
    exact hfit
  | countMyReportsByStatus t u =>
    have hfit : NumbersFit d t (some u) := of_decide_eq_true h
    exact hfit
  | countMembersByTenantID t =>
    have hfit : (membershipRows.filter (fun m => m.tenantID = t) d).length < 2 ^ 31 := of_decide_eq_true h
    exact hfit
  | monthlySummaryAll t n =>
    have hfit : SumsFit d t none today n := of_decide_eq_true h
    exact hfit
  | _ => trivial

end

/-- Nothing fails, and every dashboard is told what it asks. -/
def told (w : World server) : Action server → Bool
  | .fail _ _ => false
  | .step i _ => (w.sessions[i]?).all fun s => match s.call, s.prog, s.txn with
      | .tenant _ .getDashboard, .exec (.sql q) _, some t => tellable w.db t.clock.today q
      | _, _, _ => true
  | _ => true

theorem dashboardsUp_of_told (w : World server) (a : Action server) (h : told w a = true) :
    DashboardsUp w a := by
  cases a with
  | fail i e => cases h
  | step i o =>
    intro s actor q k t hs hcall hp ht
    simp only [told, hs, Option.all_some, hcall, hp, ht] at h
    exact tellable_of_check h
  | _ => trivial

/-- What the dashboard in session `i` has ended with. -/
def dashboardEnd (i : Nat) (w : World server) : Option Outcome :=
  match w.sessions[i]? with
  | some s => match s.call, s.prog with
    | .tenant _ .getDashboard, .ret a => some a
    | _, _ => none
  | none => none

theorem exists_of_dashboardEnd {i : Nat} {w : World server} {a : Outcome} (h : dashboardEnd i w = some a) :
    ∃ s actor, w.sessions[i]? = some s ∧ s.call = .tenant actor .getDashboard ∧ s.prog = .ret a := by
  unfold dashboardEnd at h
  split at h
  · rename_i s hs
    split at h
    · rename_i actor a' hcall hprog
      cases h
      exact ⟨s, actor, hs, hcall, hprog⟩
    · cases h
  · cases h

namespace Sample

/-- Approved: what one item of the largest amount is worth. -/
def large : ExpenseReport := { paidReport with status := .approved, totalAmount := 2147483647 }

def approvedTwice : Database :=
  { database with reports := (database.reports.put large).put { large with reportID := 3 } }

/-- The accountant pays both; then the approver looks. -/
def paidTwice : List (Action server) :=
  [.start (.tenant accountant (.markReportAsPaid 1 5)), .start (.tenant accountant (.markReportAsPaid 3 5)),
    .start (.tenant approver .getDashboard)] ++ turns 0 10 100 ++ turns 1 10 200 ++ turns 2 8 300

/-- The accountant pays one; the approver looks. -/
def paidOnce : List (Action server) :=
  [.start (.tenant accountant (.markReportAsPaid 1 5)), .start (.tenant approver .getDashboard)] ++
    turns 0 10 100 ++ turns 1 8 200

end Sample

/-- One such report can be paid in a month. -/
theorem available_of_onePayment : ∃ (w : World server) (data : DashboardData),
    Reachable DashboardsUp (.init Sample.approvedTwice) w ∧ dashboardEnd 1 w = some (.ok (.dashboard data)) := by
  have hrun : ((World.init Sample.approvedTwice : World server).run told Sample.paidOnce).any
      (fun w => (dashboardEnd 1 w).isSome) = true := by
    decide +kernel
  obtain ⟨w, hw, hsome⟩ := exists_of_run dashboardsUp_of_told hrun
  obtain ⟨a, ha⟩ := Option.isSome_iff_exists.mp hsome
  obtain ⟨s, actor, hs, hcall, hp⟩ := exists_of_dashboardEnd ha
  obtain ⟨data, rfl⟩ := (dashboard_available hw).1 1 s actor a hs hcall hp
  exact ⟨w, data, hw, ha⟩

/-- Nothing fails from outside. -/
def unfailing : World server → Action server → Bool
  | _, .fail _ _ => false
  | _, _ => true

/--
**Two payments, and no more dashboard.** Two reports of one month, each of one item
of the largest amount, are paid: the sum of the month does not fit an `INTEGER`,
and the approver gets an error instead of a dashboard, with nothing failing.
-/
theorem not_available_of_twoPayments : ∃ w : World server,
    Reachable (fun _ a => ∀ i e, a ≠ .fail i e) (.init Sample.approvedTwice) w ∧
      dashboardEnd 2 w = some (.error (.wrap "dashboardService.fillMonthlySummary: MonthlySummary"
        (.wrap "reportRepo.MonthlySummary" (.sql .numericValueOutOfRange)))) := by
  have hrun : ((World.init Sample.approvedTwice : World server).run unfailing Sample.paidTwice).any
      (fun w => dashboardEnd 2 w = some (.error (.wrap "dashboardService.fillMonthlySummary: MonthlySummary"
        (.wrap "reportRepo.MonthlySummary" (.sql .numericValueOutOfRange))))) = true := by
    decide +kernel
  obtain ⟨w, hw, hend⟩ := exists_of_run (C := fun _ a => ∀ i e, a ≠ .fail i e) (fun w a h i e ha => by
    rw [ha] at h
    cases h) hrun
  exact ⟨w, hw, of_decide_eq_true hend⟩

end ExpenseSaas
