import ExpenseSaas.Workflow.Checks

/-!
# Who may decide on a submitted report

A report is handed in only when its tenant has an approver. Nobody is ever taken
out of a tenant and no role is ever changed, so the approver is there as long as
the report waits (`members_respected`).

That approver may be the owner, who may not decide on a report of their own.
`decidable_of_submitted` says that this is the only way in which nobody can: some
approver of the tenant may decide, unless the owner is the only one.
-/

namespace ExpenseSaas

open ReadCommitted Sql

/-- The approvers of a tenant. -/
def Database.approvers (d : Database) (t : UUID) : Set UUID :=
  {u | ∃ m ∈ d.memberships.rows, m.tenantID = t ∧ m.userID = u ∧ m.role = .approver}

/-- The actor passes every check on who approves or rejects the report. -/
structure MayDecide (actor : Actor) (r : ExpenseReport) : Prop where
  tenant : actor.tenantID = r.tenantID
  approveRole : ∀ comment v, actor.role ∈ (Endpoint.approveReport r.reportID comment v).roles
  rejectRole : ∀ reason v hle, actor.role ∈ (Endpoint.rejectReport r.reportID reason v hle).roles
  authorized : Authorizer.canApproveOrReject actor r = .ok ()
  approves : ∀ now comment, ∃ r', r.approve now actor.userID comment = .ok r'
  rejects : ∀ now reason, trimSpace reason ≠ "" → ∃ r', r.reject now actor.userID reason = .ok r'

/-- Report `k` was submitted before the run. -/
def SubmittedAt (d₀ : Database) (k : UUID) : Prop :=
  ∃ r, d₀.reports.find k = some r ∧ r.status = .submitted

/-- Whoever decides passes the check on self-approval only if the report is not their own. -/
theorem mayDecide_iff {r : ExpenseReport} (hs : r.status = .submitted) {u : UUID} :
    MayDecide ⟨u, r.tenantID, .approver⟩ r ↔ u ≠ r.userID := by
  constructor
  · intro h hu
    have hauth := h.authorized
    simp [Authorizer.canApproveOrReject, hu] at hauth
  · intro hu
    refine ⟨rfl, fun _ _ => List.mem_singleton_self _, fun _ _ _ => List.mem_singleton_self _,
      ?_, fun now comment => ?_, fun now reason hr => ?_⟩
    · simp [Authorizer.canApproveOrReject, hu]
    · simp [ExpenseReport.approve, hs, hu]
    · simp [ExpenseReport.reject, hs, hu, hr]

/-! ## Members stay -/

/-- A membership is never changed. -/
def members : server.Order where
  le _ a b := ∀ m, a = some (.membership m) → b = some (.membership m)
  refl _ _ _ h := h
  trans _ _ _ _ hab hbc m h := hbc m (hab m h)

section

variable {C : World server → Action server → Prop} {d₀ : Database} {w : World server} {i : Nat}
  {s : Session server}

theorem members_respected : members.Respected C d₀ := by
  intro w i o s q t v hw _ hs hv m hm
  have hid : v.id = .membership m.userID := (id_of_server_get hm).symm
  cases v with
  | membership m' =>
    obtain ⟨snap, o', hwr⟩ := hv.writes
    obtain rfl := membership_writes hwr
    exact nomatch (hv.fresh rfl).symm.trans hm
  | _ => cases hid

theorem mem_memberships {d : Database} {m : TenantMembership} :
    m ∈ d.memberships.rows ↔ d.get (.membership m.userID) = some (.membership m) :=
  membershipRows.mem_rows d m

theorem approvers_of_history (h : Reachable C (.init d₀) w) {d : Database}
    (hd : d ∈ history d₀ w.log) {t : UUID} : d.approvers t ⊆ w.db.approvers t := by
  rintro u ⟨m, hm, ht, hu, hr⟩
  have hlater := members_respected.history h d hd (RowId.membership m.userID) m
    (mem_memberships.mp hm)
  exact ⟨m, mem_memberships.mpr hlater, ht, hu, hr⟩

theorem approvers_view (h : Reachable C (.init d₀) w) (hs : w.sessions[i]? = some s) {t : UUID} :
    w.db.approvers t ⊆ (s.view w.db).approvers t := by
  rintro u ⟨m, hm, ht, hu, hr⟩
  have hlater := members_respected.relates h hs (RowId.membership m.userID) m
    (mem_memberships.mp hm)
  exact ⟨m, mem_memberships.mpr hlater, ht, hu, hr⟩

/-- An approver who was seen is there now. -/
theorem approvers_of_seen (h : Reachable C (.init d₀) w) (hs : w.sessions[i]? = some s) {t : UUID}
    (hseen : server.Seen s.trace (.hasApprover t) true) : (w.db.approvers t).Nonempty := by
  obtain ⟨d, hd, c, o, hread⟩ := h.read_committed hs rfl hseen
  obtain ⟨m, hm, hr⟩ := List.any_eq_true.mp (Except.ok.inj hread)
  obtain ⟨hm, ht⟩ := List.mem_filter.mp hm
  exact ⟨m.userID, approvers_of_history h hd
    ⟨m, hm, of_decide_eq_true ht, rfl, of_decide_eq_true hr⟩⟩

/-! ## Reports that are handed in -/

/-- A report that the session hands in has an approver in its tenant. -/
def HandedIn (tr : Trace) (old new : Option Version) : Prop :=
  ∀ r, new = some (.report r) → r.status = .submitted →
    (∃ x, old = some (.report x) ∧ x.tenantID = r.tenantID ∧ x.status = .submitted) ∨
      server.Seen tr (.hasApprover r.tenantID) true

theorem handedIn_relates (h : Reachable C (.init d₀) w) (hs : w.sessions[i]? = some s) :
    s.Relates (fun _ => HandedIn s.trace) w.db := by
  refine h.relates (R := fun _ tr _ => HandedIn tr) ?_ ?_ ?_ hs
  · rintro _ tr k v r rfl hr
    exact Or.inl ⟨r, rfl, rfl, hr⟩
  · intro _ tr evs k a b hab r hr hst
    exact (hab r hr hst).imp_right fun hseen => hseen.append evs
  · rintro w i o s q t v hw _ hs hrel hv r hr hst
    cases hr
    have hprep : Prepared s.trace q := prepared hw hs hv
    obtain ⟨snap, o', hwr⟩ := hv.writes
    have hwr : ReportWrite snap (s.view w.db) t.clock o' q r := report_writes hwr
    -- Another change leaves tenant and status as they are.
    have hsame : ∀ x, x ∈ (s.view w.db).reports.rows → x.reportID = r.reportID →
        x.tenantID = r.tenantID → x.status = r.status →
        (∃ x, w.db.get (.report r.reportID) = some (.report x) ∧ x.tenantID = r.tenantID ∧
          x.status = .submitted) ∨ server.Seen s.trace (.hasApprover r.tenantID) true := by
      intro x hx hk ht hxs
      have hview : (s.view w.db).get (.report r.reportID) = some (.report x) :=
        hk ▸ (reportRows.mem_rows _ _).mp hx
      exact ht ▸ hrel (RowId.report r.reportID) x hview (hxs.trans hst)
    cases hwr with
    | create hrow =>
      obtain ⟨_, _, rfl⟩ := reportRow_ok hrow
      cases hst
    | edit hx hid hxv hset =>
      obtain ⟨_, _, rfl⟩ := setReport_ok hset
      exact hsame _ hx rfl rfl rfl
    | status hx hid hxv hset =>
      obtain ⟨_, _, _, _, rfl⟩ := setReportStatus_ok hset
      simp only [reportIs, Bool.and_eq_true, decide_eq_true_eq] at hid
      exact Or.inr (hid.1.1 ▸ hprep hst)
    | softDelete hx hid => exact hsame _ hx rfl rfl rfl
    | total hx ht hk hset =>
      rw [setReportTotalAmount_ok hset] at hsame ⊢
      exact hsame _ hx rfl rfl rfl

/-- **A report that is submitted in the run has an approver in its tenant.** -/
theorem approver_of_submitted (h : Reachable C (.init d₀) w) : ∀ k r,
    w.db.reports.find k = some r → r.status = .submitted →
      SubmittedAt d₀ k ∨ (w.db.approvers r.tenantID).Nonempty := by
  refine h.invariant (I := fun w : World server => ∀ k r, w.db.reports.find k = some r →
    r.status = .submitted → SubmittedAt d₀ k ∨ (w.db.approvers r.tenantID).Nonempty)
    (fun k r hr hs => Or.inl ⟨r, hr, hs⟩) (fun w w' a hw ih _ hstep => ?_)
  cases World.step_cases hstep with
  | start c => exact ih
  | broke ha hs hb => exact ih
  | @move i o s s' d' hs hm =>
    cases d' with
    | none => exact ih
    | some d' =>
      intro k r hr hst
      obtain rfl := hm.publishes
      have hr : (s.view w.db).reports.find k = some r := hr
      rcases handedIn_relates hw hs (RowId.report k) r (get_report.mpr hr) hst with
        ⟨x, hx, ht, hxs⟩ | hseen
      · refine (ih k x (get_report.mp hx) hxs).imp_right fun hne => ?_
        exact (ht ▸ hne).mono (approvers_view hw hs)
      · exact Or.inr ((approvers_of_seen hw hs hseen).mono (approvers_view hw hs))

/--
**Some approver may decide on a submitted report, unless the owner is the only
one.** Every report that is submitted in the run has an approver in its tenant.
Every approver but the owner passes all checks on who approves or rejects, so
somebody can decide unless the owner is the tenant's only approver.
-/
theorem decidable_of_submitted (h : Reachable C (.init d₀) w) {k : UUID} {r : ExpenseReport}
    (hr : w.db.reports.find k = some r) (hs : r.status = .submitted) (hnew : ¬ SubmittedAt d₀ k) :
    (w.db.approvers r.tenantID).Nonempty ∧
      ((∃ u ∈ w.db.approvers r.tenantID, MayDecide ⟨u, r.tenantID, .approver⟩ r) ↔
        w.db.approvers r.tenantID ≠ {r.userID}) := by
  have hne := (approver_of_submitted h k r hr hs).resolve_left hnew
  refine ⟨hne, ?_⟩
  rw [ne_eq, Set.eq_singleton_iff_nonempty_unique_mem]
  constructor
  · rintro ⟨u, hu, hmay⟩ ⟨_, honly⟩
    exact (mayDecide_iff hs).mp hmay (honly u hu)
  · intro hother
    obtain ⟨u, hu, hne⟩ : ∃ u ∈ w.db.approvers r.tenantID, u ≠ r.userID := by
      by_contra hnone
      exact hother ⟨hne, fun u hu => not_not.mp fun hn => hnone ⟨u, hu, hn⟩⟩
    exact ⟨u, hu, (mayDecide_iff hs).mpr hne⟩

end

/-! ## Two tenants -/

namespace Sample

/-- The owner submits their draft. -/
def submit (role : Role) : List (Action server) :=
  [.start (.tenant ⟨20, 10, role⟩ (.submitReport 1 5))] ++ turns 0 15 100

/-- The owner is the only approver of the tenant. -/
def soleApprover : Database :=
  { database with
    memberships := (Table.empty.put ⟨10, 20, .approver, 0, 0⟩).put ⟨10, 22, .accounting, 0, 0⟩ }

end Sample

/-- Report 1 is submitted. -/
def reportSubmitted (w : World server) : Bool :=
  (w.db.reports.find 1).any fun r => r.status = .submitted

theorem not_submittedAt_sample {d : Database} (hd : d.reports = Sample.database.reports) :
    ¬ SubmittedAt d 1 := by
  rintro ⟨r, hr, hs⟩
  rw [hd] at hr
  cases hr
  cases hs

/-- The owner is no approver, so the approver of the tenant may decide. -/
theorem decidable_of_submit : ∃ (w : World server) (r : ExpenseReport),
    Reachable (fun _ _ => True) (.init Sample.database) w ∧ w.db.reports.find 1 = some r ∧
      (w.db.approvers r.tenantID).Nonempty ∧
      ((∃ u ∈ w.db.approvers r.tenantID, MayDecide ⟨u, r.tenantID, .approver⟩ r) ↔
        w.db.approvers r.tenantID ≠ {r.userID}) := by
  have hrun : ((World.init Sample.database : World server).run (fun _ _ => true)
      (Sample.submit .member)).any reportSubmitted = true := by
    decide +kernel
  obtain ⟨w, hw, hst⟩ := exists_of_run (C := fun _ _ => True) (fun _ _ _ => trivial) hrun
  obtain ⟨r, hr, hs⟩ := (Option.any_eq_true _ _).mp hst
  exact ⟨w, r, hw, hr, decidable_of_submitted hw hr (of_decide_eq_true hs)
    (not_submittedAt_sample rfl)⟩

/-- **Nobody in the tenant but the owner is an approver, and the report was submitted.** -/
theorem undecidable_of_soleApprover : ∃ (w : World server) (r : ExpenseReport),
    Reachable (fun _ _ => True) (.init Sample.soleApprover) w ∧
      w.db.reports.find 1 = some r ∧ r.status = .submitted ∧ ¬ SubmittedAt Sample.soleApprover 1 ∧
      ¬ ∃ m ∈ w.db.memberships.rows, m.tenantID = r.tenantID ∧ m.role = .approver ∧
        m.userID ≠ r.userID := by
  have hrun : ((World.init Sample.soleApprover : World server).run (fun _ _ => true)
      (Sample.submit .approver)).any (fun w => (w.db.reports.find 1).any fun r =>
        r.status = .submitted && w.db.memberships.rows.all fun m =>
          !(m.tenantID = r.tenantID && m.role = .approver && m.userID ≠ r.userID)) = true := by
    decide +kernel
  obtain ⟨w, hw, hst⟩ := exists_of_run (C := fun _ _ => True) (fun _ _ _ => trivial) hrun
  obtain ⟨r, hr, hst⟩ := (Option.any_eq_true _ _).mp hst
  obtain ⟨hs, hall⟩ := Bool.and_eq_true_iff.mp hst
  refine ⟨w, r, hw, hr, of_decide_eq_true hs, not_submittedAt_sample rfl, ?_⟩
  rintro ⟨m, hm, ht, hrole, hne⟩
  have hnone := List.all_eq_true.mp hall m hm
  simp [ht, hrole, hne] at hnone

end ExpenseSaas
