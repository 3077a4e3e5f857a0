import Mathlib.Data.List.Perm.Subperm
import ExpenseSaas.Alone.Dashboards
import ExpenseSaas.Contract.Calls

/-!
# The number of reports that wait

For an approver the dashboard counts the submitted reports of the tenant and takes
away their own, in two statements that each see what is committed by then. In one
state the difference is never negative, as what is one's own is part of what there
is. So it is never negative unless the approver has one more report waiting at the
second count than at the first (`pending_of_not_overtaken`).

The invariant of a session is that from its count of all reports to its count of
the actor's own, there are no more of the latter than it has counted of the former.
-/

namespace ExpenseSaas

open ReadCommitted Sql

/-- The number of submitted reports, as read out of a count by status. -/
def submittedIn (rows : List (ReportStatus × Int)) : Int := (rows.lookup .submitted).getD 0

/-- The session is the dashboard of an approver, and has just counted the reports of the tenant. -/
def Counted (actor : Actor) (s : Session server) (all : List (ReportStatus × Int)) : Prop :=
  s.call = .tenant actor .getDashboard ∧ actor.role = .approver ∧
    s.trace.getLast? = some ⟨.sql (.countReportsByStatus actor.tenantID), .ok all⟩

/-- A report of the actor's own that waits for approval. -/
def waits (actor : Actor) (r : ExpenseReport) : Bool :=
  mine actor.tenantID (some actor.userID) r && decide (r.status = .submitted)

/-- The row version makes a report of the actor's own wait that has not waited so far. -/
def Version.Submits (actor : Actor) (d : Database) (v : Version) : Prop :=
  ∃ r, v = .report r ∧ waits actor r = true ∧ ¬ ∃ x, d.reports.find r.reportID = some x ∧ waits actor x = true

/-- Between the two counts of an approver's dashboard a report of the approver's own is submitted. -/
def Overtaken (w : World server) : Action server → Prop
  | .step i _ => ∃ s, w.sessions[i]? = some s ∧ s.Committing ∧
      ∃ (j : Nat) (t : Session server) (actor : Actor) (all : List (ReportStatus × Int)),
        w.sessions[j]? = some t ∧ Counted actor t all ∧ ∃ v ∈ s.writes, v.Submits actor w.db
  | _ => False

section

variable {d d₀ : Database} {actor : Actor}

/-- What is the actor's own is part of what there is. -/
theorem number_own_le {t u : UUID} {s : ReportStatus} : d.number t (some u) s ≤ d.number t none s := by
  have hsub : (reportRows.filter (mine t (some u)) d).Sublist (reportRows.filter (mine t none) d) := by
    refine List.monotone_filter_right _ fun r hr => ?_
    simp only [mine, given, Option.all_some, Option.all_none, Bool.and_true, Bool.and_eq_true] at hr ⊢
    exact ⟨hr.1.1, hr.2⟩
  exact hsub.countP_le

/-- The number is that of the rows that wait. -/
theorem number_eq_waiting : d.number actor.tenantID (some actor.userID) .submitted =
    (d.reports.rows.filter (waits actor)).length := by
  unfold Database.number
  rw [List.countP_eq_length_filter]
  show ((d.reports.rows.filter _).filter _).length = _
  rw [List.filter_filter]
  refine congrArg List.length (List.filter_congr fun r _ => ?_)
  exact Bool.and_comm _ _

/-- **No more reports wait** after a commit that submits none of them. -/
theorem number_le_of_publish {s : Session server} (h : ∀ v ∈ s.writes, ¬ v.Submits actor d) :
    (s.view d).number actor.tenantID (some actor.userID) .submitted ≤
      d.number actor.tenantID (some actor.userID) .submitted := by
  rw [number_eq_waiting, number_eq_waiting]
  have hwaits : ∀ r ∈ (s.view d).reports.rows, waits actor r = true →
      ∃ x ∈ d.reports.rows.filter (waits actor), x.reportID = r.reportID := by
    intro r hr hw
    have hget : (s.view d).get (.report r.reportID) = some (.report r) := (reportRows.mem_rows _ _).mp hr
    by_cases hk : s.Holds (.report r.reportID)
    · obtain ⟨v, hv, _, hview⟩ := Session.get_view_of_holds hk
      cases (hview d).symm.trans hget
      by_contra hnone
      refine h _ hv ⟨r, rfl, hw, fun ⟨x, hx, hxw⟩ => hnone ⟨x, ?_, Table.key_of_find hx⟩⟩
      exact List.mem_filter.mpr ⟨Table.mem_iff_find.mpr (by rwa [Table.key_of_find hx]), hxw⟩
    · have hsame : d.get (.report r.reportID) = some (.report r) :=
        (Session.get_view_of_free hk).symm.trans hget
      exact ⟨r, List.mem_filter.mpr ⟨(reportRows.mem_rows _ _).mpr hsame, hw⟩, rfl⟩
  have hnodup : (((s.view d).reports.rows.filter (waits actor)).map ExpenseReport.reportID).Nodup :=
    (s.view d).reports.nodup.sublist (List.filter_sublist.map _)
  have hsub : ((s.view d).reports.rows.filter (waits actor)).map ExpenseReport.reportID ⊆
      (d.reports.rows.filter (waits actor)).map ExpenseReport.reportID := by
    intro k hk
    obtain ⟨r, hr, rfl⟩ := List.mem_map.mp hk
    obtain ⟨hmem, hw⟩ := List.mem_filter.mp hr
    obtain ⟨x, hx, hid⟩ := hwaits r hmem hw
    exact List.mem_map.mpr ⟨x, hx, hid⟩
  have hle := (List.Nodup.subperm hnodup hsub).length_le
  rwa [List.length_map, List.length_map] at hle

end

/-! ## The dashboard -/

/-- What the two counts rely on: the second finds no more than the first. -/
def pendingContract (actor : Actor) : Contract Command Command.Resp where
  asks _ _ := True
  gets tr c r := actor.role = .approver → ∀ all own,
    tr.getLast? = some ⟨.sql (.countReportsByStatus actor.tenantID), .ok all⟩ →
    (⟨c, r⟩ : Event Command Command.Resp) =
      ⟨.sql (.countMyReportsByStatus actor.tenantID actor.userID), .ok own⟩ →
    submittedIn own ≤ submittedIn all

/-- The number that is shown, if one is, is not negative. -/
def ShowsNoLess (data : DashboardData) : Prop := ∀ n, data.pendingApprovalCount = some n → 0 ≤ n

section

variable {actor : Actor} {tr : Trace} {t u : UUID} {data : DashboardData}

/-- A part of the code that has nothing to do with it. -/
theorem wp_aside {α : Type} {x : Service α} : Svc.wp (pendingContract actor) tr x fun _ _ => True :=
  Prog.wp_of_free (fun _ _ => trivial) fun _ _ _ _ => trivial

theorem wp_countAll {Q : Trace → (ReportStatus → Int) → Prop}
    (h : ∀ rows, Q (tr ++ [⟨.sql (.countReportsByStatus t), .ok rows⟩]) fun s => (rows.lookup s).getD 0) :
    Svc.wp (pendingContract actor) tr (ReportRepo.countByStatus t none) Q := by
  refine Svc.wp_bind.mpr (wp_errorf.mpr (wp_sql trivial fun rows _ => ?_))
  exact Svc.wp_pure.mpr (h rows)

theorem wp_countOwn {Q : Trace → (ReportStatus → Int) → Prop}
    (h : ∀ rows, (pendingContract actor).gets tr (.sql (.countMyReportsByStatus t u)) (.ok rows) →
      Q (tr ++ [⟨.sql (.countMyReportsByStatus t u), .ok rows⟩]) fun s => (rows.lookup s).getD 0) :
    Svc.wp (pendingContract actor) tr (ReportRepo.countByStatus t (some u)) Q := by
  refine Svc.wp_bind.mpr (wp_errorf.mpr (wp_sql trivial fun rows hrows => ?_))
  exact Svc.wp_pure.mpr (h rows hrows)

theorem wp_fillMemberFields {Q : Trace → DashboardData → Prop}
    (h : ∀ tr data', data'.pendingApprovalCount = data.pendingApprovalCount → Q tr data') :
    Svc.wp (pendingContract actor) tr (DashboardService.fillMemberFields t u data) Q := by
  unfold DashboardService.fillMemberFields
  rw [Svc.wp_bind, wp_errorf]
  refine Svc.wp_mono wp_aside fun tr₁ counts _ => ?_
  rw [Svc.wp_bind, wp_errorf]
  refine Svc.wp_mono wp_aside fun tr₂ recent _ => ?_
  exact Svc.wp_pure.mpr (h _ _ rfl)

theorem wp_fillMonthlySummary (h : ShowsNoLess data) :
    Svc.wp (pendingContract actor) tr (DashboardService.fillMonthlySummary t data) fun _ => ShowsNoLess := by
  unfold DashboardService.fillMonthlySummary
  rw [Svc.wp_bind, wp_errorf]
  refine Svc.wp_mono wp_aside fun tr₁ summary _ => ?_
  exact Svc.wp_pure.mpr h

/-- **The difference of the two counts.** -/
theorem wp_fillApproverFields (hrole : actor.role = .approver) {Q : Trace → DashboardData → Prop}
    (h : ∀ tr data', ShowsNoLess data' → Q tr data') :
    Svc.wp (pendingContract actor) tr
      (DashboardService.fillApproverFields actor.tenantID actor.userID data) Q := by
  unfold DashboardService.fillApproverFields
  rw [Svc.wp_bind, wp_errorf]
  refine wp_countAll fun all => ?_
  rw [Svc.wp_bind, wp_errorf]
  refine wp_countOwn fun own hgets => ?_
  rw [Svc.wp_pure]
  refine h _ _ fun n hn => ?_
  have hle : (own.lookup .submitted).getD 0 ≤ (all.lookup .submitted).getD 0 :=
    hgets hrole all own List.getLast?_concat rfl
  cases hn
  show 0 ≤ (all.lookup .submitted).getD 0 - (own.lookup .submitted).getD 0
  omega

theorem wp_getDashboard : Svc.wp (pendingContract actor) tr (DashboardService.getDashboard actor)
    fun _ => ShowsNoLess := by
  have hnone : ∀ {data : DashboardData}, data.pendingApprovalCount = none → ShowsNoLess data := by
    intro data hdata n hn
    cases hdata.symm.trans hn
  unfold DashboardService.getDashboard
  cases hrole : actor.role with
  | member => exact wp_fillMemberFields fun _ _ h => hnone h
  | approver =>
    refine Svc.wp_bind.mpr (wp_fillMemberFields fun tr₁ data₁ _ => ?_)
    refine Svc.wp_bind.mpr (wp_fillApproverFields hrole fun tr₂ data₂ h => ?_)
    exact wp_fillMonthlySummary h
  | accounting =>
    refine Svc.wp_bind.mpr (wp_fillMemberFields fun tr₁ data₁ h => ?_)
    refine Svc.wp_bind.mpr (Svc.wp_bind.mpr ?_)
    rw [wp_errorf]
    refine Svc.wp_mono wp_aside fun tr₂ counts _ => ?_
    exact Svc.wp_pure.mpr (wp_fillMonthlySummary (hnone h))
  | admin =>
    refine Svc.wp_bind.mpr (Svc.wp_bind.mpr ?_)
    rw [wp_errorf]
    refine Svc.wp_mono wp_aside fun tr₁ counts _ => ?_
    rw [Svc.wp_bind, wp_errorf]
    refine Svc.wp_mono wp_aside fun tr₂ members _ => ?_
    exact Svc.wp_pure.mpr (wp_fillMonthlySummary (hnone rfl))

/-- What is returned, if it is a dashboard. -/
def ReturnsNoLess (a : Outcome) : Prop := ∀ data, a = .ok (.dashboard data) → ShowsNoLess data

/-- **The code of a dashboard**, in its transaction. -/
theorem wp_dashboard : Prog.wp (pendingContract actor) [] (server.code (.tenant actor .getDashboard))
    fun _ => ReturnsNoLess := by
  have hrollback : ∀ (tr : Trace) (a : Outcome), ReturnsNoLess a → Prog.wp (pendingContract actor) tr
      (do let _ ← issue .rollback; pure a : Program Outcome) fun _ => ReturnsNoLess :=
    fun tr a ha => ⟨trivial, fun _ _ => ha⟩
  have herror : ∀ e, ReturnsNoLess (.error e) := fun e data h => by cases h
  have hservice : ∀ tr, Prog.wp (pendingContract actor) tr (requireRole actor Endpoint.getDashboard.roles
      (Endpoint.getDashboard.service actor)).run fun _ => ReturnsNoLess := by
    intro tr
    have hmap : Svc.wp (pendingContract actor) tr (Endpoint.getDashboard.service actor)
        fun _ p => ReturnsNoLess (.ok p) := by
      refine Svc.wp_bind.mpr (Svc.wp_mono wp_getDashboard fun tr₁ data hdata => Svc.wp_pure.mpr ?_)
      intro data' h
      cases h
      exact hdata
    unfold requireRole
    split
    · refine Prog.wp_mono hmap fun tr₁ r hr => ?_
      cases r with
      | error e => exact herror e
      | ok p => exact hr p rfl
    · exact herror _
  show Prog.wp (pendingContract actor) [] (tenantContext actor.tenantID Endpoint.getDashboard.responder _) _
  unfold tenantContext issue
  rw [Prog.wp_bind, Prog.wp_call]
  refine ⟨trivial, fun b _ => ?_⟩
  cases b with
  | error e => exact hrollback _ _ (herror _)
  | ok b =>
    refine Prog.wp_bind.mpr (Prog.wp_call.mpr ⟨trivial, fun r _ => ?_⟩)
    cases r with
    | error e => exact hrollback _ _ (herror _)
    | ok r =>
      refine Prog.wp_bind.mpr (Prog.wp_mono (hservice _) fun tr a ha => ?_)
      split
      · refine ⟨trivial, fun c _ => ?_⟩
        cases c with
        | ok c => exact ha
        | error e => exact hrollback _ _ ha
      · exact hrollback _ _ ha

end

/-! ## Runs -/

/-- The number a count by status tells. -/
theorem submittedIn_of_count {d : Database} {t : UUID} {u : Option UUID} {rows : List (ReportStatus × Int)}
    (h : Sql.countByStatus (reportRows.filter (mine t u) d) = .ok rows) :
    submittedIn rows = d.number t u .submitted := by
  obtain ⟨_, rfl⟩ := countByStatus_eq_ok.mp h
  exact lookup_groups .submitted

/-- A count that was answered was made of what the session sees. -/
theorem count_of_answer {d : Database} {s : Session server} {q : Stmt} {rows : q.Result}
    {read : Database → Oracle → Oracle → Except SqlError q.Result} (hq : q.sem = .query read)
    (h : Answer d s (.sql q) (.ok rows)) : ∃ c o, read (s.view d) c o = .ok rows := by
  have hsem : server.sem q = .query read := hq
  cases h with
  | query ht hq' hr =>
    cases hsem.symm.trans hq'
    exact ⟨_, _, hr⟩
  | insert ht hq' hr => cases hsem.symm.trans hq'
  | update hq' hp ht => cases hsem.symm.trans hq'

/-- Where a dashboard is, and that there are no more own reports than it has counted. -/
structure Counting (actor : Actor) (d : Database) (s : Session server) : Prop where
  code : Prog.wp (pendingContract actor) s.trace s.prog fun _ => ReturnsNoLess
  bound : ∀ all, Counted actor s all →
    (d.number actor.tenantID (some actor.userID) .submitted : Int) ≤ submittedIn all

section

variable {C : World server → Action server → Prop} {d d₀ : Database} {w : World server} {i : Nat}
  {s s' : Session server} {actor : Actor}

/-- A dashboard writes nothing. -/
theorem writes_of_dashboard (h : Reachable C (.init d₀) w) (hs : w.sessions[i]? = some s)
    (hcall : s.call = .tenant actor .getDashboard) : s.writes = [] := by
  have hnone := h.writes_rule (P := fun (call : Call) _ => call ≠ .tenant actor .getDashboard) (by
    intro w i o s q t v hw _ hs hv hcall
    have hmay := may_write hw hs hv
    rw [hcall] at hmay
    cases hmay with
    | request hmay => cases hmay with
      | edit he _ _ => cases he
      | delete he _ _ => cases he
      | status he _ _ _ _ => cases he
    | auth hmay => cases hmay) hs
  exact List.eq_nil_iff_forall_not_mem.mpr fun v hv => hnone v hv hcall

/-- One answer. -/
theorem Counting.told (h : Counting actor d s) (hcall : s.call = .tenant actor .getDashboard)
    (hview : s.view d = d) (ht : Told d s s') : Counting actor d s' := by
  cases ht with
  | wait hp htr hc =>
    refine ⟨by rw [htr, hp]; exact h.code, fun all hall => h.bound all ?_⟩
    obtain ⟨hcall', hrole, hlast⟩ := hall
    exact ⟨hcall, hrole, htr ▸ hlast⟩
  | @answer c k r hp ha hp' htr hc hpe =>
    have hcode := h.code
    rw [hp, Prog.wp_exec] at hcode
    constructor
    · rw [hp', htr]
      refine hcode.2 r fun hrole all own hlast hev => ?_
      cases hev
      obtain ⟨c, o, hread⟩ := count_of_answer (q := .countMyReportsByStatus actor.tenantID actor.userID) rfl ha
      rw [hview] at hread
      rw [submittedIn_of_count hread]
      exact h.bound all ⟨hcall, hrole, hlast⟩
    · rintro all ⟨_, hrole, hlast⟩
      rw [htr, List.getLast?_concat] at hlast
      cases hlast
      obtain ⟨c, o, hread⟩ := count_of_answer (q := .countReportsByStatus actor.tenantID) rfl ha
      rw [hview] at hread
      rw [submittedIn_of_count hread]
      exact Int.ofNat_le.mpr number_own_le

/-- **Every dashboard under way**, in every run. -/
theorem counting (hC : ∀ w a, C w a → ¬ Overtaken w a) (h : Reachable C (.init d₀) w)
    (hs : w.sessions[i]? = some s) (hcall : s.call = .tenant actor .getDashboard) :
    Counting actor w.db s := by
  refine h.session_rule (P := fun d _ _ (s : Session server) =>
    s.call = .tenant actor .getDashboard → Counting actor d s)
    ?_ ?_ ?_ ?_ i s hs hcall
  · intro w c _ _ hcall
    cases hcall
    exact ⟨wp_dashboard, fun all hall => by cases hall.2.2⟩
  · intro w i o s s' d' hw _ hall hs hm hcall
    rw [hm.told.call_eq] at hcall
    have hview : s.view w.db = w.db := Session.view_of_writes_nil (writes_of_dashboard hw hs hcall)
    have hsame : (w.moved i s s' d').db = w.db := by
      cases d' with
      | none => rfl
      | some d' => exact hm.publishes.trans hview
    rw [hsame]
    exact (hall i s hs hcall).told hcall hview hm.told
  · intro w i s s' hw hs hP hb hcall
    have ht : Told w.db s s' := hb.told
    rw [ht.call_eq] at hcall
    have hview : s.view w.db = w.db := Session.view_of_writes_nil (writes_of_dashboard hw hs hcall)
    exact (hP hcall).told hcall hview ht
  · intro w i j o s s' t d' hw hc hall _ hs ht hm hcall
    have hP := hall j t ht hcall
    refine ⟨hP.code, fun all hcounted => ?_⟩
    -- Another session commits, and submits none of the actor's own reports.
    have hle : (s.view w.db).number actor.tenantID (some actor.userID) .submitted ≤
        w.db.number actor.tenantID (some actor.userID) .submitted := by
      refine number_le_of_publish fun v hv hsub => hC _ _ hc ?_
      exact ⟨s, hs, hm.committing, j, t, actor, all, ht, hcounted, v, hv, hsub⟩
    have hbound := hP.bound all hcounted
    rw [hm.publishes]
    omega

end

/--
**The number of reports that wait is not negative**, in every run in which no
report of an approver's own is submitted between the two counts of their dashboard.
-/
theorem pending_of_not_overtaken {d₀ : Database} {w : World server} {i : Nat} {s : Session server}
    {actor : Actor} {data : DashboardData} {n : Int}
    (h : Reachable (fun w a => ¬ Overtaken w a) (.init d₀) w) (hs : w.sessions[i]? = some s)
    (hcall : s.call = .tenant actor .getDashboard) (hp : s.prog = .ret (.ok (.dashboard data)))
    (hn : data.pendingApprovalCount = some n) : 0 ≤ n := by
  have hcode := (counting (fun _ _ hc => hc) h hs hcall).code
  rw [hp] at hcode
  exact hcode data rfl n hn

/-! ## Two runs -/

/-- Nothing is written of a user who has a dashboard under way. -/
def apart (w : World server) : Action server → Bool
  | .step i _ => (w.sessions[i]?).all fun s => s.writes.all fun v => w.sessions.all fun t =>
      match v, t.call with
      | .report r, .tenant actor .getDashboard => r.userID ≠ actor.userID
      | _, _ => true
  | _ => true

theorem not_overtaken_of_apart (w : World server) (a : Action server) (h : apart w a = true) :
    ¬ Overtaken w a := by
  cases a with
  | step i o =>
    rintro ⟨s, hs, _, j, t, actor, all, ht, ⟨hcall, _⟩, v, hv, r, rfl, hw, _⟩
    simp only [apart, hs, Option.all_some] at h
    have hne := List.all_eq_true.mp (List.all_eq_true.mp h _ hv) t (List.mem_of_getElem? ht)
    simp only [hcall] at hne
    simp only [waits, mine, given, Option.all_some, Bool.and_eq_true, decide_eq_true_eq] at hw
    exact of_decide_eq_true hne hw.1.1.2
  | _ => exact id

/-- The number the first session shows to wait for approval. -/
def pendingShown (w : World server) : Option Int :=
  match w.sessions[0]? with
  | some s => match s.call, s.prog with
    | .tenant _ .getDashboard, .ret (.ok (.dashboard data)) => data.pendingApprovalCount
    | _, _ => none
  | none => none

theorem exists_of_pendingShown {w : World server} {n : Int} (h : pendingShown w = some n) :
    ∃ s actor data, w.sessions[0]? = some s ∧ s.call = .tenant actor .getDashboard ∧
      s.prog = .ret (.ok (.dashboard data)) ∧ data.pendingApprovalCount = some n := by
  unfold pendingShown at h
  split at h
  · rename_i s hs
    split at h
    · rename_i actor data hcall hprog
      exact ⟨s, actor, data, hs, hcall, hprog, h⟩
    · cases h
  · cases h

namespace Sample

/-- The approver's dashboard counts what waits; `user` submits a report; the dashboard goes on. -/
def submittedBetween (user : Actor) : List (Action server) :=
  [.start (.tenant approver .getDashboard), .start (.tenant user (.submitReport 1 5))] ++
    turns 0 5 100 ++ turns 1 15 200 ++ turns 0 3 300

/-- The draft is the approver's own. -/
def ownDraft : Database :=
  { database with reports := Table.empty.put { report with userID := 21 } }

end Sample

/-- A member's report is submitted between the two counts. -/
theorem pending_of_membersReport : ∃ (w : World server) (s : Session server) (actor : Actor)
    (data : DashboardData) (n : Int), Reachable (fun w a => ¬ Overtaken w a) (.init Sample.database) w ∧
      w.sessions[0]? = some s ∧ s.call = .tenant actor .getDashboard ∧
      s.prog = .ret (.ok (.dashboard data)) ∧ data.pendingApprovalCount = some n ∧ 0 ≤ n := by
  have hrun : ((World.init Sample.database : World server).run apart
      (Sample.submittedBetween Sample.owner)).any (fun w => pendingShown w = some 0) = true := by
    decide +kernel
  obtain ⟨w, hw, hshown⟩ := exists_of_run not_overtaken_of_apart hrun
  obtain ⟨s, actor, data, hs, hcall, hp, hn⟩ := exists_of_pendingShown (of_decide_eq_true hshown)
  exact ⟨w, s, actor, data, 0, hw, hs, hcall, hp, hn, pending_of_not_overtaken hw hs hcall hp hn⟩

/--
**Minus one report waits.** The approver has a draft; after the dashboard has
counted what waits in the tenant, which is nothing, they submit it in another
window, and the dashboard counts it as their own.
-/
theorem not_pending_of_ownReport : ∃ (w : World server) (s : Session server) (actor : Actor)
    (data : DashboardData), Reachable (fun _ _ => True) (.init Sample.ownDraft) w ∧
      w.sessions[0]? = some s ∧ s.call = .tenant actor .getDashboard ∧
      s.prog = .ret (.ok (.dashboard data)) ∧ data.pendingApprovalCount = some (-1) := by
  have hrun : ((World.init Sample.ownDraft : World server).run (fun _ _ => true)
      (Sample.submittedBetween Sample.approver)).any (fun w => pendingShown w = some (-1)) = true := by
    decide +kernel
  obtain ⟨w, hw, hshown⟩ := exists_of_run (C := fun _ _ => True) (fun _ _ _ => trivial) hrun
  obtain ⟨s, actor, data, hs, hcall, hp, hn⟩ := exists_of_pendingShown (of_decide_eq_true hshown)
  exact ⟨w, s, actor, data, hw, hs, hcall, hp, hn⟩

end ExpenseSaas
