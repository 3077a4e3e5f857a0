import ExpenseSaas.Alone.Statements
import ExpenseSaas.Contract.Calls
import ExpenseSaas.Runs.Schedules

/-!
# What responses disclose

Two layers decide what an actor gets to see. `GetReport` and the attachments ask
the authorizer. The lists do not: there the role list of the route and the
`WHERE` of the query stand for it. Whoever changes a report is shown it
afterwards, and has been checked for the change only.

`discloses_only_visible` says that all of them come to `CanViewReport`: whatever
report a successful response tells of, in any interleaving, is one the actor has
created by this very call, or there was a committed state in which it was a live
report of the actor's tenant that the actor may view. A request that names a
report is told of this one only. The reference of a resubmission counts as a
field of the report that has it.
-/

namespace ExpenseSaas

open ReadCommitted Sql

/-- The report an endpoint names in its path. -/
def Endpoint.path : Endpoint → Option UUID
  | .getReport k => some k
  | .updateReport k _ => some k
  | .deleteReport k => some k
  | .submitReport k _ => some k
  | .createItem k _ => some k
  | .updateItem k _ _ => some k
  | .deleteItem k _ => some k
  | .uploadAttachment k _ _ => some k
  | .listAttachments k _ => some k
  | .getAttachmentDownload k _ _ => some k
  | .getAttachmentPreview k _ _ => some k
  | .deleteAttachment k _ _ => some k
  | .approveReport k _ _ => some k
  | .rejectReport k _ _ _ => some k
  | .markReportAsPaid k _ => some k
  | _ => none

/-- The reports the data of a response tells of. -/
def Payload.reportIDs : Payload → List UUID
  | .detail d => d.id :: d.items.map ExpenseItemDTO.reportID
  | .summaries l _ => l.map ExpenseReportSummary.id
  | .item i => [i.reportID]
  | .pending l _ => l.map PendingReport.id
  | .processed l _ => l.map ProcessedReport.id
  | .payable l _ => l.map PayableReport.id
  | .dashboard d => (d.recentReports.getD []).map RecentReport.id
  | _ => []

/-- A live report of the actor's tenant that the actor may view. -/
structure Visible (actor : Actor) (r : ExpenseReport) : Prop where
  tenantID : r.tenantID = actor.tenantID
  live : r.deletedAt = none
  view : Authorizer.canViewReport actor r = .ok ()

/-- The report was there to be seen in the state. -/
def InSight (actor : Actor) (d : Database) (k : UUID) : Prop :=
  ∃ r, d.reports.find k = some r ∧ Visible actor r

/-- The answer was made of a state in which the report was in sight. -/
def Sql.Stmt.Exhibits (actor : Actor) (q : Stmt) (res : q.Result) (k : UUID) : Prop :=
  ∃ read, q.sem = .query read ∧ ∀ d clock o, read d clock o = .ok res → InSight actor d k

/-- The transaction has seen the report, before it wrote anything. -/
def Shown (actor : Actor) (tr : Trace) (k : UUID) : Prop :=
  ∃ q res, server.Seen tr q res ∧ q.Exhibits actor res k

/-- What a response to the endpoint may tell of. -/
structure Tells (actor : Actor) (e : Endpoint) (tr : Trace) (p : Payload) : Prop where
  path : ∀ k, e.path = some k → Shown actor tr k ∧ ∀ j ∈ p.reportIDs, j = k
  rest : e.path = none → ∀ k ∈ p.reportIDs,
    Shown actor tr k ∨ ((∃ params, e = .createReport params) ∧ Created actor tr k)

section

variable {actor : Actor} {e : Endpoint} {tr tr' : Trace} {k : UUID} {r : ExpenseReport} {p : Payload}

theorem Shown.mono (h : Shown actor tr k) (hp : tr <+: tr') : Shown actor tr' k := by
  obtain ⟨evs, rfl⟩ := hp
  obtain ⟨q, res, hs, hr⟩ := h
  exact ⟨q, res, hs.append evs, hr⟩

theorem Created.mono (h : Created actor tr k) (hp : tr <+: tr') : Created actor tr' k := by
  obtain ⟨evs, rfl⟩ := hp
  exact h.append evs

theorem Tells.mono (h : Tells actor e tr p) (hp : tr <+: tr') : Tells actor e tr' p where
  path k hk := ⟨(h.path k hk).1.mono hp, (h.path k hk).2⟩
  rest hk k hmem := by
    rcases h.rest hk k hmem with hs | ⟨he, hc⟩
    · exact Or.inl (hs.mono hp)
    · exact Or.inr ⟨he, hc.mono hp⟩

theorem Tells.of_path (he : e.path = some k) (h : Shown actor tr k)
    (hp : ∀ j ∈ p.reportIDs, j = k) : Tells actor e tr p where
  path j hj := by
    cases he.symm.trans hj
    exact ⟨h, hp⟩
  rest hnone := by rw [he] at hnone; cases hnone

theorem Tells.of_shown (he : e.path = none) (h : ∀ k ∈ p.reportIDs, Shown actor tr k) :
    Tells actor e tr p where
  path j hj := by rw [he] at hj; cases hj
  rest _ k hk := Or.inl (h k hk)

/-! ## Who may view -/

theorem view_of_owner (h : r.userID = actor.userID) :
    Authorizer.canViewReport actor r = .ok () := by
  unfold Authorizer.canViewReport
  rw [if_pos h.symm]

theorem view_of_role (h : actor.role = .admin ∨ actor.role = .accounting) :
    Authorizer.canViewReport actor r = .ok () := by
  unfold Authorizer.canViewReport
  split
  · rfl
  · rcases h with h | h <;> rw [h]

theorem view_of_approver (h : actor.role = .approver) (hr : r.status = .submitted ∨
    r.approvedBy = some actor.userID ∨ r.rejectedBy = some actor.userID) :
    Authorizer.canViewReport actor r = .ok () := by
  unfold Authorizer.canViewReport
  rw [h]
  rcases hr with hr | hr | hr <;> simp [hr]

/-- Of a report that was found, the rows of the state are found again. -/
theorem exhibits_getReport {u : Unit} (ha : Authorizer.canViewReport actor r = .ok u) :
    (Stmt.getReportByID actor.tenantID k).Exhibits actor (some r) k := by
  refine ⟨_, rfl, fun d clock o hread => ?_⟩
  have hfirst := Except.ok.inj hread
  have hr := (reportRows.mem_of_first hfirst).2
  simp only [reportIs, Bool.and_eq_true, decide_eq_true_eq, Option.isNone_iff_eq_none] at hr
  exact ⟨r, (find_of_reportIs hfirst).1, hr.1.1, hr.2, ha⟩

theorem shown_of_view {u : Unit} (hr : ReadReport actor tr k r)
    (ha : Authorizer.canViewReport actor r = .ok u) : Shown actor tr k :=
  ⟨_, _, hr, exhibits_getReport ha⟩

end

/-! ## Services -/

/-- Nothing is promised; the answers are those the statements can give. -/
abbrev seeing : Contract Command Command.Resp := server.contract fun _ _ => True

section

variable {α : Type} {actor : Actor} {e : Endpoint} {tr : Trace} {k : UUID} {r : ExpenseReport}

/-- Whatever a service does, it only lengthens the history. -/
theorem seeing_any {x : Service α} {Q : Trace → α → Prop} (hQ : ∀ tr' a, tr <+: tr' → Q tr' a) :
    Svc.wp seeing tr x Q :=
  Prog.wp_of_inv (I := fun tr' => tr <+: tr') (fun _ _ _ => trivial)
    (fun _ _ _ h => h.trans (List.prefix_append _ _)) List.prefix_rfl fun tr' _ h a _ => hQ tr' a h

/-- The report is looked up. -/
theorem seeing_getReport {Q : Trace → ExpenseReport → Prop} (hc : server.clean tr = true)
    (hQ : ∀ tr' r, server.clean tr' = true → ReadReport actor tr' k r → r.reportID = k → Q tr' r) :
    Svc.wp seeing tr (ReportRepo.getByID actor.tenantID k) Q := by
  unfold ReportRepo.getByID
  rw [Svc.wp_bind, wp_errorf]
  refine wp_sql trivial (fun row hrow => ?_)
  rw [wp_orNoRows]
  rintro r rfl
  obtain ⟨d, c, o, hd⟩ := hrow
  have hk := (find_of_reportIs (Except.ok.inj hd)).2.2
  refine hQ _ r ?_ (Engine.seen_append.mpr (Or.inr ⟨rfl, hc⟩)) hk
  rw [Engine.clean_append_sql, hc]
  rfl

/-- The check every edit starts with. -/
theorem seeing_editableReport {Q : Trace → ExpenseReport → Prop} (hc : server.clean tr = true)
    (hQ : ∀ tr' r, Shown actor tr' k → Q tr' r) :
    Svc.wp seeing tr (editableReport actor k) Q := by
  unfold editableReport
  simp only [Svc.wp_bind, wp_demand, Svc.wp_pure]
  refine seeing_getReport hc fun tr₁ r _ hr _ _ ha _ _ => ?_
  exact hQ tr₁ r (shown_of_view hr (u := ()) (view_of_owner (owner_of_canModify ha)))

/-- A page of reports is read: the rows are those the `WHERE` selects. -/
theorem seeing_page (actor : Actor) {q : Stmt} {read : Database → Oracle → Oracle → Except SqlError q.Result}
    (hq : q.sem = .query read) (rowsOf : q.Result → List ExpenseReport) (hc : server.clean tr = true)
    (hrows : ∀ res d clock o, read d clock o = .ok res → ∀ r ∈ rowsOf res,
      d.reports.find r.reportID = some r ∧ Visible actor r) {Q : Trace → q.Result → Prop}
    (hQ : ∀ tr' res, (∀ r ∈ rowsOf res, Shown actor tr' r.reportID) → Q tr' res) :
    Svc.wp seeing tr (sql q) Q := by
  refine wp_sql trivial fun res _ => hQ _ res fun r hr => ?_
  refine ⟨q, res, Engine.seen_append.mpr (Or.inr ⟨rfl, hc⟩), read, hq, fun d clock o hread => ?_⟩
  exact ⟨r, hrows res d clock o hread r hr⟩

/-- The rows of a page are rows of the table, and were selected. -/
theorem mem_of_page {limit offset : Int} {keys : ExpenseReport → List Int} {o : Oracle} {d : Database}
    {p : ExpenseReport → Bool} {rows : List ExpenseReport}
    (h : pageOf limit offset keys o (reportRows.filter p d) = .ok rows) (hr : r ∈ rows) :
    d.reports.find r.reportID = some r ∧ p r = true := by
  unfold pageOf page at h
  split at h
  · cases h
  · cases h
    have hmem := perm_orderBy.mem_iff.mp (List.mem_of_mem_drop (List.mem_of_mem_take hr))
    obtain ⟨hrow, hp⟩ := List.mem_filter.mp hmem
    exact ⟨d.reports.mem_iff_find.mp hrow, hp⟩

/-! ### Details -/

theorem seeing_buildItems (items : List ExpenseItem) {j : UUID} {cache : CategoryCache}
    (hitems : ∀ x ∈ items, x.reportID = k) : Svc.wp seeing tr
      (ReportService.buildItems actor j cache items) fun _ l => ∀ x ∈ l, x.reportID = k := by
  induction items generalizing cache tr with
  | nil =>
    refine Svc.wp_pure.mpr fun x hx => ?_
    cases hx
  | cons i is ih =>
    unfold ReportService.buildItems
    simp only [Svc.wp_bind, wp_errorf, Svc.wp_pure]
    refine seeing_any fun tr₁ cache' _ => seeing_any fun tr₂ attachments _ => ?_
    refine Svc.wp_mono (ih fun x hx => hitems x (List.mem_cons_of_mem _ hx)) fun tr₃ l hl x hx => ?_
    rcases List.mem_cons.mp hx with rfl | hx
    · exact hitems i List.mem_cons_self
    · exact hl x hx

theorem seeing_listItems {Q : Trace → List ExpenseItem → Prop}
    (hQ : ∀ tr' l, (∀ x ∈ l, x.reportID = k) → Q tr' l) :
    Svc.wp seeing tr (ItemRepo.listByReportID actor.tenantID k) Q := by
  unfold ItemRepo.listByReportID
  rw [wp_errorf]
  refine wp_sql trivial fun l hl => hQ _ l fun x hx => ?_
  obtain ⟨d, c, o, hd⟩ := hl
  cases hd
  have hmem := perm_orderBy.mem_iff.mp hx
  have hx := (List.mem_filter.mp hmem).2
  simp only [itemOf, Bool.and_eq_true, decide_eq_true_eq] at hx
  exact hx.1.2

/-- A detail tells of its report, in all its items too. -/
theorem seeing_buildDetail (hr : r.reportID = k) : Svc.wp seeing tr
    (ReportService.buildDetail actor r) fun _ d => ∀ j ∈ (Payload.detail d).reportIDs, j = k := by
  unfold ReportService.buildDetail
  simp only [Svc.wp_bind, wp_errorf, Svc.wp_pure]
  refine seeing_any fun tr₁ submitter _ => seeing_any fun tr₂ submittedBy _ => ?_
  refine seeing_any fun tr₃ approvedBy _ => seeing_any fun tr₄ rejectedBy _ => ?_
  refine seeing_any fun tr₅ paidBy _ => seeing_listItems fun tr₆ items hitems => ?_
  refine Svc.wp_mono (seeing_buildItems items hitems) fun tr₇ l hl j hj => ?_
  rcases List.mem_cons.mp hj with rfl | hj
  · exact hr
  · obtain ⟨x, hx, rfl⟩ := List.mem_map.mp hj
    exact (hl x hx).trans hr

theorem seeing_buildWorkflowDetail (hr : r.reportID = k) : Svc.wp seeing tr
    (WorkflowService.buildWorkflowDetail r) fun _ d => ∀ j ∈ (Payload.detail d).reportIDs, j = k := by
  unfold WorkflowService.buildWorkflowDetail
  simp only [Svc.wp_bind, wp_errorf, Svc.wp_pure]
  refine seeing_any fun tr₁ submitter _ => seeing_any fun tr₂ approvedBy _ => ?_
  refine seeing_any fun tr₃ rejectedBy _ => seeing_any fun tr₄ paidBy _ => ?_
  refine seeing_any fun tr₅ submittedBy _ j hj => ?_
  obtain rfl := List.mem_singleton.mp hj
  exact hr

/-- The post of a service that is asked about report `k`: it is in sight, and told of alone. -/
abbrev Asked (actor : Actor) (k : UUID) (x : Service α) (f : α → Payload) : Prop :=
  ∀ tr, server.clean tr = true → Svc.wp seeing tr x fun tr' a =>
    Shown actor tr' k ∧ ∀ j ∈ (f a).reportIDs, j = k

/-- What is shown of a report stays seen while its detail is put together. -/
theorem seeing_detail {build : ExpenseReport → Service ExpenseReportDetail}
    (hbuild : ∀ tr, Svc.wp seeing tr (build r) fun _ d => ∀ j ∈ (Payload.detail d).reportIDs, j = k)
    (h : Shown actor tr k) : Svc.wp seeing tr (build r) fun tr' d =>
      Shown actor tr' k ∧ ∀ j ∈ (Payload.detail d).reportIDs, j = k := by
  have hgrow : Svc.wp seeing tr (build r) fun tr' _ => Shown actor tr' k :=
    seeing_any fun tr' d htr => h.mono htr
  exact Prog.wp_mono (Prog.wp_and hgrow (hbuild tr)) fun tr' a h d had => ⟨h.1 d had, h.2 d had⟩

theorem asked_getReport : Asked actor k (ReportService.getReport actor k) Payload.detail := by
  intro tr hc
  unfold ReportService.getReport
  simp only [Svc.wp_bind, wp_demand]
  refine seeing_getReport hc fun tr₁ r _ hr hk _ ha => ?_
  exact seeing_detail (fun tr => seeing_buildDetail hk) (shown_of_view hr ha)

/-- What an update answers is the report it was given. -/
theorem reportID_of_updated {p : Sql.UpdateReportParams} {r' : ExpenseReport}
    (h : server.Possible (.sql (.updateReport p)) (.ok (some r'))) : r'.reportID = p.reportID := by
  obtain ⟨ws, hws, hall⟩ := h
  obtain ⟨_, _, _, x, hx, hset⟩ := Relation.made_of_applied (T := reportRows) hall
    (List.mem_of_mem_head? hws.symm)
  obtain ⟨_, _, rfl⟩ := setReport_ok hset
  simp only [reportIs, Bool.and_eq_true, decide_eq_true_eq] at hx
  exact hx.1.1.2

theorem reportID_of_statusUpdated {p : Sql.UpdateReportStatusParams} {r' : ExpenseReport}
    (h : server.Possible (.sql (.updateReportStatus p)) (.ok (some r'))) : r'.reportID = p.reportID := by
  obtain ⟨ws, hws, hall⟩ := h
  obtain ⟨_, _, _, x, hx, hset⟩ := Relation.made_of_applied (T := reportRows) hall
    (List.mem_of_mem_head? hws.symm)
  obtain ⟨_, _, _, _, rfl⟩ := setReportStatus_ok hset
  simp only [reportIs, Bool.and_eq_true, decide_eq_true_eq] at hx
  exact hx.1.1.2

/-- What is written back is the report that was read. -/
theorem seeing_update {Q : Trace → ExpenseReport → Prop}
    (hQ : ∀ tr' r', tr <+: tr' → r'.reportID = r.reportID → Q tr' r') :
    Svc.wp seeing tr (ReportRepo.update r) Q := by
  unfold ReportRepo.update
  simp only [Svc.wp_bind, wp_errorf, wp_orNoRows]
  refine wp_sql trivial fun row hrow r' hr' => hQ _ r' (List.prefix_append _ _) ?_
  subst hr'
  exact reportID_of_updated hrow

theorem seeing_updateStatus {Q : Trace → ExpenseReport → Prop}
    (hQ : ∀ tr' r', tr <+: tr' → r'.reportID = r.reportID → Q tr' r') :
    Svc.wp seeing tr (ReportRepo.updateStatus r) Q := by
  unfold ReportRepo.updateStatus
  simp only [Svc.wp_bind, wp_errorf, wp_orNoRows]
  refine wp_sql trivial fun row hrow r' hr' => hQ _ r' (List.prefix_append _ _) ?_
  subst hr'
  exact reportID_of_statusUpdated hrow

theorem asked_updateReport {params : UpdateReportParams} :
    Asked actor k (ReportService.updateReport actor k params) Payload.detail := by
  intro tr hc
  unfold ReportService.updateReport
  simp only [Svc.wp_bind, wp_demand]
  refine seeing_getReport hc fun tr₁ r _ hr hk _ ha _ _ => ?_
  have hs := shown_of_view hr (u := ()) (view_of_owner (owner_of_canModify ha))
  split
  · exact wp_fail.mpr trivial
  · rw [Svc.wp_bind]
    refine seeing_update fun tr₂ r' htr hk' => ?_
    exact seeing_detail (fun tr => seeing_buildDetail (hk'.trans hk)) (hs.mono htr)

theorem asked_submitReport {v : Timestamp} :
    Asked actor k (ReportService.submitReport actor k v) Payload.detail := by
  intro tr hc
  unfold ReportService.submitReport
  simp only [Svc.wp_bind, wp_demand]
  refine seeing_getReport hc fun tr₁ r _ hr hk _ ha => ?_
  have hs := shown_of_view hr (u := ()) (view_of_owner (owner_of_canModify ha))
  split
  · exact wp_fail.mpr trivial
  · simp only [Svc.wp_bind, wp_demand]
    refine seeing_any fun tr₂ hasApprover h₂ => seeing_any fun tr₃ items h₃ => ?_
    refine seeing_any fun tr₄ now h₄ r' hsub => seeing_updateStatus fun tr₅ r'' h₅ hk' => ?_
    obtain ⟨_, _, _, rfl⟩ := submit_ok hsub
    refine seeing_detail (fun tr => seeing_buildDetail (hk'.trans hk)) (hs.mono ?_)
    exact ((h₂.trans h₃).trans h₄).trans h₅

/-- A decision is taken by one who may view what it is taken on. -/
theorem asked_decideOn {v : Timestamp} {authorize : Actor → ExpenseReport → Except DomainError Unit}
    {transition : Timestamp → ExpenseReport → Except DomainError ExpenseReport}
    (hT : ∀ now r r', transition now r = .ok r' →
      r'.reportID = r.reportID ∧ Authorizer.canViewReport actor r = .ok ()) :
    Asked actor k (WorkflowService.decideOn actor k v authorize transition) Payload.detail := by
  intro tr hc
  unfold WorkflowService.decideOn
  simp only [Svc.wp_bind, wp_demand]
  refine seeing_getReport hc fun tr₁ r _ hr hk _ _ => ?_
  split
  · exact wp_fail.mpr trivial
  · simp only [Svc.wp_bind, wp_demand]
    refine seeing_any fun tr₂ now h₂ r' htr => seeing_updateStatus fun tr₃ r'' h₃ hk' => ?_
    obtain ⟨hsame, hview⟩ := hT now r r' htr
    have hs := shown_of_view hr hview
    exact seeing_detail (fun tr => seeing_buildWorkflowDetail ((hk'.trans hsame).trans hk))
      (hs.mono (h₂.trans h₃))

/-! ### Items and attachments -/

/-- After the check of an edit the report is in sight, whatever the rest does. -/
theorem asked_of_edit {x : ExpenseReport → Service α} {f : α → Payload}
    (hx : ∀ r tr, Svc.wp seeing tr (x r) fun _ a => ∀ j ∈ (f a).reportIDs, j = k) :
    Asked actor k (editableReport actor k >>= x) f := by
  intro tr hc
  rw [Svc.wp_bind]
  refine seeing_editableReport hc fun tr₁ r hs => ?_
  have hgrow : Svc.wp seeing tr₁ (x r) fun tr' _ => Shown actor tr' k :=
    seeing_any fun tr' a htr => hs.mono htr
  exact Prog.wp_mono (Prog.wp_and hgrow (hx r tr₁)) fun tr' a h b hb => ⟨h.1 b hb, h.2 b hb⟩

theorem seeing_buildItemDTO {i : ExpenseItem} (hi : i.reportID = k) : Svc.wp seeing tr
    (ItemService.buildItemDTO actor i) fun _ x => ∀ j ∈ (Payload.item x).reportIDs, j = k := by
  unfold ItemService.buildItemDTO
  simp only [Svc.wp_bind, wp_errorf, Svc.wp_pure]
  refine seeing_any fun tr₁ cat _ => seeing_any fun tr₂ attachments _ j hj => ?_
  obtain rfl := List.mem_singleton.mp hj
  exact hi

theorem asked_createItem {params : CreateItemParams} :
    Asked actor k (ItemService.createItem actor k params) Payload.item := by
  refine asked_of_edit fun r tr => ?_
  unfold ItemRepo.create
  simp only [Svc.wp_bind, wp_errorf, wp_demand, Svc.wp_pure]
  intro _ _
  refine seeing_any fun tr₁ category _ => wp_sql trivial fun x hx => ?_
  refine seeing_any fun tr₂ _ _ => seeing_buildItemDTO ?_
  obtain ⟨d, c, o, v, hrow, rfl⟩ := hx
  obtain ⟨_, _, hx⟩ := itemRow_ok (Relation.made_of_inserted (T := itemRows) hrow)
  exact congrArg ExpenseItem.reportID hx

theorem asked_updateItem {i : UUID} {params : UpdateItemParams} :
    Asked actor k (ItemService.updateItem actor k i params) Payload.item := by
  refine asked_of_edit fun r tr => ?_
  unfold ItemRepo.getByID ItemRepo.update
  simp only [Svc.wp_bind, wp_errorf, wp_demand, wp_orNoRows, Svc.wp_pure]
  refine wp_sql trivial fun row hrow item hitem => ?_
  subst hitem
  obtain ⟨d, c, o, hd⟩ := hrow
  have hi := (itemRows.mem_of_first (Except.ok.inj hd)).2
  simp only [itemOf, Bool.and_eq_true, decide_eq_true_eq] at hi
  intro _ _
  refine seeing_any fun tr₁ category _ => wp_sql trivial fun row' hrow' x hx => ?_
  refine seeing_any fun tr₂ _ _ => seeing_buildItemDTO ?_
  subst hx
  obtain ⟨ws, hws, hall⟩ := hrow'
  obtain ⟨_, _, _, y, hy, hset⟩ := Relation.made_of_applied (T := itemRows) hall
    (List.mem_of_mem_head? hws.symm)
  obtain ⟨_, rfl⟩ := setItem_ok hset
  simp only [itemOf, Bool.and_eq_true, decide_eq_true_eq] at hy
  exact hy.1.1.1.2.trans hi.1.1.2

/-- After it, nothing more is told of. -/
theorem asked_of_edit_nothing {x : ExpenseReport → Service α} {f : α → Payload}
    (hf : ∀ a, (f a).reportIDs = []) : Asked actor k (editableReport actor k >>= x) f := by
  refine asked_of_edit fun r tr => seeing_any fun tr' a _ j hj => ?_
  rw [hf] at hj
  cases hj

theorem asked_deleteItem {i : UUID} :
    Asked actor k (ItemService.deleteItem actor k i) fun _ => .nothing :=
  asked_of_edit_nothing fun _ => rfl

theorem asked_uploadAttachment {i : UUID} {upload : FileUpload} :
    Asked actor k (AttachmentService.uploadAttachment actor k i upload) Payload.attachment :=
  asked_of_edit_nothing fun _ => rfl

theorem asked_deleteAttachment {i a : UUID} :
    Asked actor k (AttachmentService.deleteAttachment actor k i a) fun _ => .nothing :=
  asked_of_edit_nothing fun _ => rfl

/-- A service that starts like `GetReport` and tells of no report itself. -/
theorem asked_of_view {x : ExpenseReport → Service α} {f : α → Payload}
    (hf : ∀ a, (f a).reportIDs = []) :
    Asked actor k (do
      let report ← ReportRepo.getByID actor.tenantID k
      demand (Authorizer.canViewReport actor report)
      x report) f := by
  intro tr hc
  simp only [Svc.wp_bind, wp_demand]
  refine seeing_getReport hc fun tr₁ r _ hr _ u ha => seeing_any fun tr₂ a htr => ?_
  refine ⟨(shown_of_view hr ha).mono htr, fun j hj => ?_⟩
  rw [hf] at hj
  cases hj

theorem asked_listAttachments {i : UUID} :
    Asked actor k (AttachmentService.listAttachments actor k i) Payload.attachments :=
  asked_of_view fun _ => rfl

theorem asked_generatePresignedURL {i a : UUID} {dispositionType : String} :
    Asked actor k (AttachmentService.generatePresignedURL actor k i a dispositionType) Payload.access :=
  asked_of_view fun _ => rfl

theorem asked_deleteReport : Asked actor k (ReportService.deleteReport actor k) fun _ => .nothing := by
  intro tr hc
  unfold ReportService.deleteReport
  simp only [Svc.wp_bind, wp_demand]
  refine seeing_getReport hc fun tr₁ r _ hr _ _ ha => ?_
  have hs := shown_of_view hr (u := ()) (view_of_owner (owner_of_canModify ha))
  refine seeing_any fun tr₂ now h₂ r' _ => seeing_any fun tr₃ _ h₃ => ⟨hs.mono (h₂.trans h₃), ?_⟩
  intro j hj
  cases hj

/-! ### Lists -/

/-- The entries of a list are made of its rows. -/
theorem seeing_withSubmitters {β : Type} {make : ExpenseReport → Option UserSummary → β}
    (rows : List ExpenseReport) {cache : UserCache} :
    Svc.wp seeing tr (withSubmitters make cache rows) fun tr' l => tr <+: tr' ∧
      ∀ b ∈ l, ∃ r ∈ rows, ∃ u, b = make r u := by
  induction rows generalizing cache tr with
  | nil =>
    refine Svc.wp_pure.mpr ⟨List.prefix_rfl, fun b hb => ?_⟩
    cases hb
  | cons r rs ih =>
    unfold withSubmitters
    simp only [Svc.wp_bind, Svc.wp_pure]
    refine seeing_any fun tr₁ cache' h₁ => Svc.wp_mono ih fun tr₂ l h => ⟨h₁.trans h.1, fun b hb => ?_⟩
    rcases List.mem_cons.mp hb with rfl | hb
    · exact ⟨r, List.mem_cons_self, _, rfl⟩
    · obtain ⟨x, hx, u, rfl⟩ := h.2 b hb
      exact ⟨x, List.mem_cons_of_mem _ hx, u, rfl⟩

/-- A list with names tells of the reports whose rows were read. -/
theorem seeing_named {β : Type} {make : ExpenseReport → Option UserSummary → β} (idOf : β → UUID)
    (hid : ∀ r u, idOf (make r u) = r.reportID) {rows : List ExpenseReport}
    (hrows : ∀ r ∈ rows, Shown actor tr r.reportID) {p : List β → Payload}
    (hp : ∀ l, (p l).reportIDs = l.map idOf) : Svc.wp seeing tr (withSubmitters make [] rows)
      fun tr' l => ∀ k ∈ (p l).reportIDs, Shown actor tr' k := by
  refine Svc.wp_mono (seeing_withSubmitters rows) fun tr' l ⟨htr, hl⟩ k hk => ?_
  rw [hp] at hk
  obtain ⟨b, hb, rfl⟩ := List.mem_map.mp hk
  obtain ⟨r, hr, u, rfl⟩ := hl b hb
  rw [hid]
  exact (hrows r hr).mono htr

/-- What a list tells of has been in sight. -/
abbrev Lists (actor : Actor) (x : Service α) (f : α → Payload) : Prop :=
  ∀ tr, server.clean tr = true → Svc.wp seeing tr x fun tr' a =>
    ∀ k ∈ (f a).reportIDs, Shown actor tr' k

theorem visible_of_selects {p : ListReportsParams} (h : p.selects r = true)
    (ht : p.tenantID = actor.tenantID)
    (hview : p.userID = some actor.userID ∨ actor.role = .admin ∨ actor.role = .accounting) :
    Visible actor r := by
  simp only [ListReportsParams.selects, Bool.and_eq_true, decide_eq_true_eq,
    Option.isNone_iff_eq_none] at h
  refine ⟨h.1.1.1.1.1.trans ht, h.1.1.1.1.2, ?_⟩
  rcases hview with hu | hrole
  · rw [hu] at h
    exact view_of_owner (of_decide_eq_true h.2)
  · exact view_of_role hrole

/-- Both lists of `reportRepo.List`. -/
theorem seeing_list {params : ReportListParams} (hc : server.clean tr = true)
    (hview : params.userID = some actor.userID ∨ actor.role = .admin ∨ actor.role = .accounting)
    {Q : Trace → List ExpenseReport × Int → Prop}
    (hQ : ∀ tr' rows total, (∀ r ∈ rows, Shown actor tr' r.reportID) → Q tr' (rows, total)) :
    Svc.wp seeing tr (ReportRepo.list actor.tenantID params) Q := by
  unfold ReportRepo.list
  rw [wp_errorf]
  split
  · rename_i u hu
    rw [hu] at hview
    simp only [Svc.wp_bind, Svc.wp_pure]
    refine seeing_page actor rfl id hc (fun res d clock o hres r hr => ?_) fun tr₁ rows hrows => ?_
    · obtain ⟨hfind, hsel⟩ := mem_of_page hres hr
      exact ⟨hfind, visible_of_selects hsel rfl hview⟩
    · exact seeing_any fun tr₂ total h₂ => hQ tr₂ rows total fun r hr => (hrows r hr).mono h₂
  · rename_i hu
    rw [hu] at hview
    simp only [Svc.wp_bind, Svc.wp_pure]
    refine seeing_page actor rfl id hc (fun res d clock o hres r hr => ?_) fun tr₁ rows hrows => ?_
    · obtain ⟨hfind, hsel⟩ := mem_of_page hres hr
      have hrole : actor.role = .admin ∨ actor.role = .accounting := hview.resolve_left fun h => by cases h
      exact ⟨hfind, visible_of_selects hsel rfl (Or.inr hrole)⟩
    · exact seeing_any fun tr₂ total h₂ => hQ tr₂ rows total fun r hr => (hrows r hr).mono h₂

theorem lists_listMyReports {params : ReportListParams} :
    Lists actor (ReportService.listMyReports actor params) fun r => .summaries r.1 r.2 := by
  intro tr hc
  unfold ReportService.listMyReports
  simp only [Svc.wp_bind, wp_errorf, Svc.wp_pure]
  refine seeing_list hc (Or.inl rfl) fun tr₁ rows total hrows k hk => ?_
  simp only [Payload.reportIDs, List.map_map, List.mem_map] at hk
  obtain ⟨r, hr, rfl⟩ := hk
  exact hrows r hr

theorem lists_listAllReports {params : ReportListParams}
    (hrole : actor.role = .admin ∨ actor.role = .accounting) :
    Lists actor (ReportService.listAllReports actor params) fun r => .summaries r.1 r.2 := by
  intro tr hc
  unfold ReportService.listAllReports
  simp only [Svc.wp_bind, wp_errorf, Svc.wp_pure]
  refine seeing_list hc (Or.inr hrole) fun tr₁ rows total hrows => ?_
  exact seeing_named ExpenseReportSummary.id (fun _ _ => rfl) hrows (p := fun l => .summaries l _) fun _ => rfl

theorem visible_of_workList {p : ListWorkflowParams} {status : ReportStatus} {d : Database} {o : Oracle}
    (h : p.selects status d o r = true) (ht : p.tenantID = actor.tenantID)
    (hview : r.status = status → Authorizer.canViewReport actor r = .ok ()) : Visible actor r := by
  unfold ListWorkflowParams.selects at h
  split at h
  · cases h
  · simp only [Bool.and_eq_true, decide_eq_true_eq, Option.isNone_iff_eq_none] at h
    exact ⟨h.1.1.1.trans ht, h.1.2, hview h.1.1.2⟩

theorem lists_listPendingReports {params : WorkflowListParams} (hrole : actor.role = .approver) :
    Lists actor (WorkflowService.listPendingReports actor params) fun r => .pending r.1 r.2 := by
  intro tr hc
  unfold WorkflowService.listPendingReports ReportRepo.listPending
  simp only [Svc.wp_bind, wp_errorf, Svc.wp_pure]
  refine seeing_page actor rfl id hc (fun res d clock o hres r hr => ?_) fun tr₁ rows hrows => ?_
  · obtain ⟨_, _, hpage⟩ := Except.bind_eq_ok.mp hres
    obtain ⟨hfind, hsel⟩ := mem_of_page hpage hr
    exact ⟨hfind, visible_of_workList hsel rfl fun hs => view_of_approver hrole (Or.inl hs)⟩
  · refine seeing_any fun tr₂ total h₂ => ?_
    exact seeing_named PendingReport.id (fun _ _ => rfl) (fun r hr => (hrows r hr).mono h₂)
      (p := fun l => .pending l _) fun _ => rfl

theorem lists_listPayableReports {params : WorkflowListParams} (hrole : actor.role = .accounting) :
    Lists actor (WorkflowService.listPayableReports actor params) fun r => .payable r.1 r.2 := by
  intro tr hc
  unfold WorkflowService.listPayableReports ReportRepo.listPayable
  simp only [Svc.wp_bind, wp_errorf, Svc.wp_pure]
  refine seeing_page actor rfl id hc (fun res d clock o hres r hr => ?_) fun tr₁ rows hrows => ?_
  · obtain ⟨_, _, hpage⟩ := Except.bind_eq_ok.mp hres
    obtain ⟨hfind, hsel⟩ := mem_of_page hpage hr
    exact ⟨hfind, visible_of_workList hsel rfl fun _ => view_of_role (Or.inr hrole)⟩
  · refine seeing_any fun tr₂ total h₂ => ?_
    exact seeing_named PayableReport.id (fun _ _ => rfl) (fun r hr => (hrows r hr).mono h₂)
      (p := fun l => .payable l _) fun _ => rfl

theorem lists_listProcessedReports {params : WorkflowListParams} (hrole : actor.role = .approver) :
    Lists actor (WorkflowService.listProcessedReports actor params) fun r => .processed r.1 r.2 := by
  intro tr hc
  unfold WorkflowService.listProcessedReports ReportRepo.listProcessed
  simp only [Svc.wp_bind, wp_errorf, Svc.wp_pure]
  refine seeing_page actor rfl id hc (fun res d clock o hres r hr => ?_) fun tr₁ rows hrows => ?_
  · obtain ⟨hfind, hsel⟩ := mem_of_page hres hr
    simp only [ListProcessedReportsParams.selects, Bool.and_eq_true, Bool.or_eq_true, decide_eq_true_eq,
      Option.isNone_iff_eq_none] at hsel
    exact ⟨hfind, hsel.1.1, hsel.2, view_of_approver hrole (Or.inr hsel.1.2)⟩
  · refine seeing_any fun tr₂ total h₂ => ?_
    exact seeing_named ProcessedReport.id (fun _ _ => rfl) (fun r hr => (hrows r hr).mono h₂)
      (p := fun l => .processed l _) fun _ => rfl

/-- The dashboard shows the actor's own reports. -/
theorem seeing_fillMemberFields {data : DashboardData} (hc : server.clean tr = true) :
    Svc.wp seeing tr (DashboardService.fillMemberFields actor.tenantID actor.userID data)
      fun tr' data' => ∀ k ∈ (Payload.dashboard data').reportIDs, Shown actor tr' k := by
  unfold DashboardService.fillMemberFields ReportRepo.countByStatus ReportRepo.listRecentReports
  simp only [Svc.wp_bind, wp_errorf, Svc.wp_pure]
  refine wp_sql trivial fun counts _ => ?_
  refine seeing_page actor rfl id ?_ (fun res d clock o hres r hr => ?_) fun tr₁ rows hrows k hk => ?_
  · rw [Engine.clean_append_sql, hc]
    rfl
  · obtain ⟨hfind, hsel⟩ := mem_of_page hres hr
    simp only [mine, given, Option.all_some, Bool.and_eq_true, decide_eq_true_eq,
      Option.isNone_iff_eq_none] at hsel
    exact ⟨hfind, hsel.1.1, hsel.2, view_of_owner hsel.1.2⟩
  · simp only [Payload.reportIDs, Option.getD_some, List.map_map, List.mem_map] at hk
    obtain ⟨r, hr, rfl⟩ := hk
    exact hrows r hr

/-- What else the dashboard shows are numbers. -/
def KeepsRecent (fill : DashboardData → Service DashboardData) : Prop :=
  ∀ tr data, Svc.wp seeing tr (fill data) fun tr' data' =>
    tr <+: tr' ∧ data'.recentReports = data.recentReports

theorem keepsRecent_fillApproverFields {t u : UUID} :
    KeepsRecent (DashboardService.fillApproverFields t u) := by
  intro tr data
  unfold DashboardService.fillApproverFields
  simp only [Svc.wp_bind, wp_errorf, Svc.wp_pure]
  exact seeing_any fun tr₁ all h₁ => seeing_any fun tr₂ own h₂ => ⟨h₁.trans h₂, trivial⟩

theorem keepsRecent_fillAccountingFields {t : UUID} :
    KeepsRecent (DashboardService.fillAccountingFields t) := by
  intro tr data
  unfold DashboardService.fillAccountingFields
  simp only [Svc.wp_bind, wp_errorf, Svc.wp_pure]
  exact seeing_any fun tr₁ all h₁ => ⟨h₁, trivial⟩

theorem keepsRecent_fillAdminFields {t : UUID} : KeepsRecent (DashboardService.fillAdminFields t) := by
  intro tr data
  unfold DashboardService.fillAdminFields
  simp only [Svc.wp_bind, wp_errorf, Svc.wp_pure]
  exact seeing_any fun tr₁ all h₁ => seeing_any fun tr₂ members h₂ => ⟨h₁.trans h₂, trivial⟩

theorem keepsRecent_fillMonthlySummary {t : UUID} :
    KeepsRecent (DashboardService.fillMonthlySummary t) := by
  intro tr data
  unfold DashboardService.fillMonthlySummary
  simp only [Svc.wp_bind, wp_errorf, Svc.wp_pure]
  exact seeing_any fun tr₁ summary h₁ => ⟨h₁, trivial⟩

theorem KeepsRecent.lists {fill : DashboardData → Service DashboardData} (h : KeepsRecent fill)
    {data : DashboardData} (hdata : ∀ k ∈ (Payload.dashboard data).reportIDs, Shown actor tr k) :
    Svc.wp seeing tr (fill data) fun tr' data' =>
      ∀ k ∈ (Payload.dashboard data').reportIDs, Shown actor tr' k := by
  refine Svc.wp_mono (h tr data) fun tr' data' ⟨htr, hsame⟩ k hk => ?_
  have hmem : k ∈ (data'.recentReports.getD []).map RecentReport.id := hk
  rw [hsame] at hmem
  exact (hdata k hmem).mono htr

theorem lists_getDashboard : Lists actor (DashboardService.getDashboard actor) Payload.dashboard := by
  intro tr hc
  unfold DashboardService.getDashboard
  split
  · exact seeing_fillMemberFields hc
  · simp only [Svc.wp_bind]
    refine Svc.wp_mono (seeing_fillMemberFields hc) fun tr₁ data₁ h₁ => ?_
    refine Svc.wp_mono (keepsRecent_fillApproverFields.lists h₁) fun tr₂ data₂ h₂ => ?_
    exact keepsRecent_fillMonthlySummary.lists h₂
  · simp only [Svc.wp_bind]
    refine Svc.wp_mono (seeing_fillMemberFields hc) fun tr₁ data₁ h₁ => ?_
    refine Svc.wp_mono (keepsRecent_fillAccountingFields.lists h₁) fun tr₂ data₂ h₂ => ?_
    exact keepsRecent_fillMonthlySummary.lists h₂
  · have hnone : ∀ k ∈ (Payload.dashboard default).reportIDs, Shown actor tr k := by
      intro k hk
      cases hk
    rw [Svc.wp_bind]
    refine Svc.wp_mono (keepsRecent_fillAdminFields.lists hnone) fun tr₁ data₁ h₁ => ?_
    exact keepsRecent_fillMonthlySummary.lists h₁

/-! ### A new report -/

/-- Read again after the items are copied, it is still the report that was created. -/
theorem seeing_copyItems {reference : Option UUID} (hc : Created actor tr r.reportID) :
    Svc.wp seeing tr (ReportService.copyItems actor r reference) fun tr' r' =>
      r'.reportID = r.reportID ∧ Created actor tr' r.reportID := by
  unfold ReportService.copyItems
  split
  · exact Svc.wp_pure.mpr ⟨rfl, hc⟩
  · unfold ReportRepo.getByID
    simp only [Svc.wp_bind, wp_errorf, wp_orNoRows]
    refine seeing_any fun tr₁ items h₁ => seeing_any fun tr₂ copies h₂ => ?_
    refine wp_sql trivial fun row hrow r' hr' => ?_
    subst hr'
    obtain ⟨d, c, o, hd⟩ := hrow
    have hk := (find_of_reportIs (Except.ok.inj hd)).2.2
    exact ⟨hk, hc.mono ((h₁.trans h₂).trans (List.prefix_append _ _))⟩

theorem seeing_createReport {params : CreateReportParams} : Svc.wp seeing tr
    (ReportService.createReport actor params) fun tr' d =>
      ∀ j ∈ (Payload.detail d).reportIDs, Created actor tr' j := by
  unfold ReportService.createReport ReportRepo.create
  simp only [Svc.wp_bind, wp_errorf]
  refine seeing_any fun tr₁ _ h₁ => wp_sql trivial fun report _ => ?_
  refine Svc.wp_mono (seeing_copyItems ⟨_, report, by simp, rfl, rfl⟩) fun tr₂ r' hcopied => ?_
  obtain ⟨hk, hc⟩ := hcopied
  have hgrow : Svc.wp seeing tr₂ (ReportService.buildDetail actor r') fun tr' _ =>
      Created actor tr' report.reportID := seeing_any fun tr' d htr => hc.mono htr
  refine Prog.wp_mono (Prog.wp_and hgrow (seeing_buildDetail hk)) fun tr' a h d had j hj => ?_
  exact h.2 d had j hj ▸ h.1 d had

/-! ## Requests -/

theorem seeing_map {β : Type} {x : Service α} {f : α → β} {Q : Trace → β → Prop}
    (h : Svc.wp seeing tr x fun tr' a => Q tr' (f a)) : Svc.wp seeing tr (f <$> x) Q :=
  Svc.wp_bind.mpr (Svc.wp_mono h fun _ _ ha => Svc.wp_pure.mpr ha)

theorem Asked.tells {x : Service α} {f : α → Payload} (h : Asked actor k x f) (he : e.path = some k)
    (hc : server.clean tr = true) : Svc.wp seeing tr (f <$> x) (Tells actor e) :=
  seeing_map (Svc.wp_mono (h tr hc) fun _ _ ha => .of_path he ha.1 ha.2)

theorem Lists.tells {x : Service α} {f : α → Payload} (h : Lists actor x f) (he : e.path = none)
    (hc : server.clean tr = true) : Svc.wp seeing tr (f <$> x) (Tells actor e) :=
  seeing_map (Svc.wp_mono (h tr hc) fun _ _ ha => .of_shown he ha)

/-- A service whose result tells of no report. -/
theorem lists_nothing {x : Service α} {f : α → Payload} (hf : ∀ a, (f a).reportIDs = []) :
    Lists actor x f := by
  intro tr _
  refine seeing_any fun tr' a _ k hk => ?_
  rw [hf] at hk
  cases hk

/-- **Each service tells only what it may**, once the role is let through. -/
theorem tells_service (hrole : actor.role ∈ e.roles) (hc : server.clean tr = true) :
    Svc.wp seeing tr (e.service actor) (Tells actor e) := by
  cases e with
  | getMe => exact (lists_nothing fun _ => rfl).tells rfl hc
  | getDashboard => exact lists_getDashboard.tells rfl hc
  | listCategories => exact (lists_nothing fun _ => rfl).tells rfl hc
  | listMyReports params => exact lists_listMyReports.tells rfl hc
  | createReport params =>
    refine seeing_map (Svc.wp_mono seeing_createReport fun tr' d h => ⟨fun k hk => ?_, fun _ k hk => ?_⟩)
    · cases hk
    · exact Or.inr ⟨⟨params, rfl⟩, h k hk⟩
  | getReport k => exact asked_getReport.tells rfl hc
  | updateReport k params => exact asked_updateReport.tells rfl hc
  | deleteReport k => exact asked_deleteReport.tells rfl hc
  | submitReport k v => exact asked_submitReport.tells rfl hc
  | createItem k params => exact asked_createItem.tells rfl hc
  | updateItem k i params => exact asked_updateItem.tells rfl hc
  | deleteItem k i => exact asked_deleteItem.tells rfl hc
  | uploadAttachment k i upload => exact asked_uploadAttachment.tells rfl hc
  | listAttachments k i => exact asked_listAttachments.tells rfl hc
  | getAttachmentDownload k i a => exact asked_generatePresignedURL.tells rfl hc
  | getAttachmentPreview k i a => exact asked_generatePresignedURL.tells rfl hc
  | deleteAttachment k i a => exact asked_deleteAttachment.tells rfl hc
  | listPendingReports params =>
    exact (lists_listPendingReports (List.mem_singleton.mp hrole)).tells rfl hc
  | listProcessedReports params =>
    exact (lists_listProcessedReports (List.mem_singleton.mp hrole)).tells rfl hc
  | approveReport k comment v =>
    refine (asked_decideOn fun now r r' h => ?_).tells rfl hc
    obtain ⟨hs, _, rfl⟩ := approve_ok h
    exact ⟨rfl, view_of_approver (List.mem_singleton.mp hrole) (Or.inl hs)⟩
  | rejectReport k reason v hle =>
    refine (asked_decideOn fun now r r' h => ?_).tells rfl hc
    obtain ⟨hs, _, _, rfl⟩ := reject_ok h
    exact ⟨rfl, view_of_approver (List.mem_singleton.mp hrole) (Or.inl hs)⟩
  | listPayableReports params =>
    exact (lists_listPayableReports (List.mem_singleton.mp hrole)).tells rfl hc
  | markReportAsPaid k v =>
    refine (asked_decideOn fun now r r' h => ?_).tells rfl hc
    obtain ⟨_, _, rfl⟩ := markAsPaid_ok h
    exact ⟨rfl, view_of_role (Or.inr (List.mem_singleton.mp hrole))⟩
  | listAllReports params =>
    exact (lists_listAllReports (by simpa [Endpoint.roles] using hrole)).tells rfl hc
  | listTenantMembers => exact (lists_nothing fun _ => rfl).tells rfl hc
  | getTenant => exact (lists_nothing fun _ => rfl).tells rfl hc

/-- What a transaction does around a request adds nothing to what is told. -/
theorem seeing_tenantContext {t : UUID} {responder : Responder} {handler : Service Payload}
    (h : ∀ tr, server.clean tr = true → Svc.wp seeing tr handler (Tells actor e)) :
    Prog.wp seeing [] (tenantContext t responder handler) fun tr a =>
      ∀ p, a = .ok p → Tells actor e tr p := by
  have hback : ∀ (tr : Trace) (a : Outcome), (∀ p, a = .ok p → Tells actor e tr p) →
      Prog.wp seeing tr (do let _ ← issue .rollback; pure a : Program Outcome) fun tr a =>
        ∀ p, a = .ok p → Tells actor e tr p :=
    fun tr a ha => ⟨trivial, fun _ _ p hp => (ha p hp).mono (List.prefix_append _ _)⟩
  have herror : ∀ (tr : Trace) (err : GoError) p, (.error err : Outcome) = .ok p → Tells actor e tr p := by
    intro tr err p hp
    cases hp
  unfold tenantContext issue
  rw [Prog.wp_bind, Prog.wp_call]
  refine ⟨trivial, fun b _ => ?_⟩
  cases b with
  | error err => exact hback _ _ (herror _ _)
  | ok b =>
    refine Prog.wp_bind.mpr (Prog.wp_call.mpr ⟨trivial, fun r _ => ?_⟩)
    cases r with
    | error err => exact hback _ _ (herror _ _)
    | ok u =>
      refine Prog.wp_bind.mpr (Prog.wp_mono (h _ rfl) fun tr r hr => ?_)
      split
      · refine ⟨trivial, fun c _ => ?_⟩
        have hr' : ∀ p, r = .ok p → Tells actor e (tr ++ [⟨.commit, c⟩]) p :=
          fun p hp => (hr p hp).mono (List.prefix_append _ _)
        cases c with
        | ok c => exact hr'
        | error err => exact hback _ _ hr'
      · exact hback _ _ hr

/-- What a call may tell of. -/
def CallTells (call : Call) (tr : Trace) (a : Outcome) : Prop :=
  ∀ actor e, call = .tenant actor e → ∀ p, a = .ok p → Tells actor e tr p

theorem call_tells (call : Call) : Prog.wp seeing [] (server.code call) (CallTells call) := by
  cases call with
  | tenant actor e =>
    have hrole : ∀ tr, server.clean tr = true →
        Svc.wp seeing tr (requireRole actor e.roles (e.service actor)) (Tells actor e) := by
      intro tr hc
      unfold requireRole
      split
      · rename_i hrole
        exact tells_service hrole hc
      · exact wp_fail.mpr trivial
    refine Prog.wp_mono (seeing_tenantContext hrole) fun tr a ha actor' e' hcall => ?_
    cases hcall
    exact ha
  | _ =>
    refine Prog.wp_of_free (fun _ _ => trivial) fun tr a actor e hcall => ?_
    cases hcall

end

/-! ## Runs -/

section

variable {C : World server → Action server → Prop} {d₀ : Database} {w : World server} {i : Nat}
  {s : Session server} {actor : Actor} {e : Endpoint} {p : Payload} {k : UUID}

/-- What was shown to a transaction was in sight in a committed state. -/
theorem inSight_of_shown (h : Reachable C (.init d₀) w) (hs : w.sessions[i]? = some s)
    (hk : Shown actor s.trace k) : ∃ d ∈ history d₀ w.log, InSight actor d k := by
  obtain ⟨q, res, hseen, read, hq, hsight⟩ := hk
  obtain ⟨d, hd, clock, o, hread⟩ := h.read_committed (E := server) hs hq hseen
  exact ⟨d, hd, hsight d clock o hread⟩

/-- What the response of a session discloses. -/
structure DisclosesVisible (d₀ : Database) (w : World server) (tr : Trace) (actor : Actor) (e : Endpoint)
    (p : Payload) : Prop where
  /-- A request that names a report is told of this one, which was in sight. -/
  path : ∀ k, e.path = some k →
    (∃ d ∈ history d₀ w.log, InSight actor d k) ∧ ∀ j ∈ p.reportIDs, j = k
  /-- Any other is told of what was in sight, or of what it has created. -/
  rest : e.path = none → ∀ k ∈ p.reportIDs, (∃ d ∈ history d₀ w.log, InSight actor d k) ∨
    ((∃ params, e = .createReport params) ∧ Created actor tr k)

/-- **Responses disclose only what may be viewed**, in every interleaving. -/
theorem disclosesVisible_of_returned (h : Reachable C (.init d₀) w) (hs : w.sessions[i]? = some s)
    (hcall : s.call = .tenant actor e) (hp : s.prog = .ret (.ok p)) :
    DisclosesVisible d₀ w s.trace actor e p := by
  have htells : Tells actor e s.trace p :=
    h.returned (E := server) (fun _ c _ => call_tells c) hs hp actor e hcall p rfl
  refine ⟨fun k hk => ?_, fun hnone k hk => ?_⟩
  · obtain ⟨hshown, hone⟩ := htells.path k hk
    exact ⟨inSight_of_shown h hs hshown, hone⟩
  · exact (htells.rest hnone k hk).imp_left (inSight_of_shown h hs)

end

/-- Whom session `i` runs for, and the reports it is told of once it has its response. -/
def toldOf (i : Nat) (w : World server) : Option (Actor × List UUID) :=
  match w.sessions[i]? with
  | some s => match s.call, s.prog with
    | .tenant actor _, .ret (.ok p) => some (actor, p.reportIDs)
    | _, _ => none
  | none => none

theorem exists_of_toldOf {i : Nat} {w : World server} {actor : Actor} {l : List UUID}
    (h : toldOf i w = some (actor, l)) : ∃ s e p, w.sessions[i]? = some s ∧
      s.call = .tenant actor e ∧ s.prog = .ret (.ok p) ∧ p.reportIDs = l := by
  unfold toldOf at h
  split at h
  · rename_i s hs
    split at h
    · rename_i actor e p hcall hprog
      cases h
      exact ⟨s, e, p, hs, hcall, hprog, rfl⟩
    · cases h
  · cases h

/-- The owner submits their report, and the approver's work list has it. -/
def Sample.submitThenList : List (Action server) :=
  [.start (.tenant owner (.submitReport 1 5))] ++ turns 0 15 100 ++
    [.start (.tenant approver (.listPendingReports ⟨none, 1, 20⟩))] ++ turns 1 6 200

/-- It was in sight since it was submitted. -/
theorem disclosesVisible_of_submitThenList : ∃ (w : World server) (s : Session server) (e : Endpoint)
    (p : Payload), Reachable (fun _ _ => True) (.init Sample.database) w ∧ w.sessions[1]? = some s ∧
      s.call = .tenant Sample.approver e ∧ s.prog = .ret (.ok p) ∧ p.reportIDs = [1] ∧
      DisclosesVisible Sample.database w s.trace Sample.approver e p := by
  have hrun : ((World.init Sample.database : World server).run (fun _ _ => true)
      Sample.submitThenList).any (fun w => toldOf 1 w = some (Sample.approver, [1])) = true := by
    decide +kernel
  obtain ⟨w, hw, htold⟩ := exists_of_run (C := fun _ _ => True) (fun _ _ _ => trivial) hrun
  obtain ⟨s, e, p, hs, hcall, hp, hl⟩ := exists_of_toldOf (of_decide_eq_true htold)
  exact ⟨w, s, e, p, hw, hs, hcall, hp, hl, disclosesVisible_of_returned hw hs hcall hp⟩

end ExpenseSaas
