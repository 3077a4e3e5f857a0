import ExpenseSaas.Postgres.Statements

/-!
# What a statement writes

One specification for each statement that writes: the row it starts from, the
conditions that row meets, and the row it leaves. They are grouped by table, so
that an argument about one table looks at the statements of that table and at no
other. The invariants of reports, items and tokens all start here.
-/

namespace ExpenseSaas

open ReadCommitted

namespace Relation

variable {R β : Type} {T : Relation R} {snap cur : Database} {clock o : Oracle} {v : Version}

theorem writes_insert [Inhabited R] {row : Database → Oracle → Oracle → Except SqlError R}
    {s : Sql.Meaning R} (h : s.Writes snap cur clock o v) (hs : s = T.insert row) :
    ∃ r, row cur clock o = .ok r ∧ v = T.wrap r := by
  subst hs
  unfold insert at h
  rw [Sem.writes_insert] at h
  cases hr : row cur clock o with
  | error e => simp [hr, Except.map] at h
  | ok r =>
    simp only [hr, Except.map, Except.ok.injEq] at h
    exact ⟨r, rfl, h.symm⟩

theorem writes_update {cond : R → Bool}
    {set : Database → Database → Oracle → R → Except SqlError R} {resp : List R → β}
    {s : Sql.Meaning β} (h : s.Writes snap cur clock o v) (hs : s = T.update cond set resp) :
    ∃ r r', cur.get (T.id r) = some (T.wrap r) ∧ cond r = true ∧ set snap cur clock r = .ok r' ∧
      v = T.wrap r' := by
  subst hs
  unfold update at h
  rw [Sem.writes_update] at h
  obtain ⟨k, hk⟩ := h
  obtain ⟨r, r', hr, hc, hs, hv⟩ := T.apply_eq_some hk
  exact ⟨r, r', (T.id_of_get hr).symm ▸ hr, hc, hs, hv⟩

/-- The rows an update has written are versions of those its `WHERE` named. -/
theorem made_of_applied {cond : R → Bool}
    {set : Database → Database → Oracle → R → Except SqlError R} {ws : List Version} {y : R}
    (h : ∀ v ∈ ws, ∃ snap cur clock key, T.apply cond set snap cur clock key = some (.ok v))
    (hy : y ∈ ws.filterMap T.unwrap) :
    ∃ snap cur clock x, cond x = true ∧ set snap cur clock x = .ok y := by
  obtain ⟨v, hv, hvy⟩ := List.mem_filterMap.mp hy
  obtain ⟨snap, cur, clock, key, happ⟩ := h v hv
  obtain ⟨x, y', _, hc, hs, rfl⟩ := T.apply_eq_some happ
  have hsame : T.unwrap (T.wrap y') = some y' := (T.unwrap_wrap _ _).mpr rfl
  obtain rfl := Option.some.inj (hsame.symm.trans hvy)
  exact ⟨snap, cur, clock, x, hc, hs⟩

/-- The row an insert answers is the one it has made. -/
theorem made_of_inserted [Inhabited R] {x : Except SqlError R}
    (h : x.map T.wrap = .ok v) : x = .ok ((T.unwrap v).getD default) := by
  cases x with
  | error err => cases h
  | ok y =>
    cases h
    rw [(T.unwrap_wrap _ _).mpr rfl]
    rfl

/-- An update that keeps the key of a row writes a version of the row it visits. -/
theorem update_id {cond : R → Bool} {set : Database → Database → Oracle → R → Except SqlError R}
    {resp : List R → β} {s : Sql.Meaning β} {targets : Database → List RowId}
    {apply : Database → Database → Oracle → RowId → Option (Except SqlError Version)}
    {resp' : List Version → β} {k : RowId} (hs : s = .update targets apply resp')
    (h : apply snap cur clock k = some (.ok v)) (hs' : s = T.update cond set resp)
    (hset : ∀ r r', set snap cur clock r = .ok r' → T.id r' = T.id r) : v.id = k := by
  rw [hs] at hs'
  unfold update at hs'
  cases hs'
  obtain ⟨r, r', hr, _, hr', rfl⟩ := T.apply_eq_some h
  rw [T.id_wrap, hset r r' hr', T.id_of_get hr]

/-- The rows an update chooses in its snapshot satisfy its `WHERE` there. -/
theorem exists_of_targets {cond : R → Bool} {set : Database → Database → Oracle → R → Except SqlError R}
    {resp : List R → β} {s : Sql.Meaning β} {targets : Database → List RowId}
    {apply : Database → Database → Oracle → RowId → Option (Except SqlError Version)}
    {resp' : List Version → β} {k : RowId} (hs : s = .update targets apply resp')
    (hs' : s = T.update cond set resp) (hk : k ∈ targets snap) :
    ∃ r, cond r = true ∧ k = T.id r ∧ snap.get (T.id r) = some (T.wrap r) := by
  rw [hs] at hs'
  unfold update at hs'
  cases hs'
  obtain ⟨r, hr, rfl⟩ := List.mem_map.mp hk
  obtain ⟨hmem, hc⟩ := List.mem_filter.mp hr
  exact ⟨r, hc, rfl, (T.mem_rows _ _).mp hmem⟩

end Relation

namespace Sql

variable {q : Stmt} {snap cur : Database} {clock o : Oracle}

/-! ## The rows the statements make -/

section

variable {r r' : ExpenseReport} {i i' : ExpenseItem} {a : Attachment}

theorem checkReport_eq_ok : checkReport r = .ok r' ↔
    (r.periodStart.le r.periodEnd = true ∧ 0 ≤ r.totalAmount) ∧ r = r' := by
  simp [checkReport, and_assoc]

theorem reportRow_ok {p : CreateReportParams} (h : reportRow p cur clock o = .ok r) :
    ∃ title, varchar 200 p.title = .ok title ∧ r = {
      reportID := o.uuid, tenantID := p.tenantID, userID := p.userID, title := title,
      periodStart := p.periodStart, periodEnd := p.periodEnd, status := .draft, totalAmount := 0,
      referenceReportID := p.referenceReportID, submittedBy := none, submittedAt := none,
      approvedBy := none, approvedAt := none, approvalComment := none, rejectedBy := none,
      rejectedAt := none, rejectionReason := none, paidBy := none, paidAt := none,
      createdAt := clock.now, updatedAt := clock.now, deletedAt := none } := by
  obtain ⟨title, ht, h⟩ := Except.bind_eq_ok.mp h
  obtain ⟨x, hx, h⟩ := Except.bind_eq_ok.mp h
  obtain ⟨_, _, h⟩ := Except.bind_eq_ok.mp h
  obtain ⟨_, _, h⟩ := Except.bind_eq_ok.mp h
  obtain ⟨_, _, h⟩ := Except.bind_eq_ok.mp h
  cases h
  exact ⟨title, ht, (checkReport_eq_ok.mp hx).2.symm⟩

theorem setReport_ok {p : UpdateReportParams} (h : setReport p snap cur clock r = .ok r') :
    ∃ title, varchar 200 p.title = .ok title ∧ r' = { r with
      title := title, periodStart := p.periodStart, periodEnd := p.periodEnd
      updatedAt := clock.now } := by
  obtain ⟨title, ht, h⟩ := Except.bind_eq_ok.mp h
  exact ⟨title, ht, (checkReport_eq_ok.mp h).2.symm⟩

theorem setReportStatus_ok {p : UpdateReportStatusParams}
    (h : setReportStatus p snap cur clock r = .ok r') :
    ∃ comment reason, varcharNull 1000 p.approvalComment = .ok comment ∧
      varcharNull 1000 p.rejectionReason = .ok reason ∧ r' = { r with
        status := p.status
        submittedBy := p.submittedBy, submittedAt := p.submittedAt
        approvedBy := p.approvedBy, approvedAt := p.approvedAt, approvalComment := comment
        rejectedBy := p.rejectedBy, rejectedAt := p.rejectedAt, rejectionReason := reason
        paidBy := p.paidBy, paidAt := p.paidAt
        updatedAt := clock.now } := by
  obtain ⟨comment, hc, h⟩ := Except.bind_eq_ok.mp h
  obtain ⟨reason, hr, h⟩ := Except.bind_eq_ok.mp h
  obtain ⟨_, _, h⟩ := Except.bind_eq_ok.mp h
  obtain ⟨_, _, h⟩ := Except.bind_eq_ok.mp h
  obtain ⟨_, _, h⟩ := Except.bind_eq_ok.mp h
  obtain ⟨_, _, h⟩ := Except.bind_eq_ok.mp h
  cases h
  exact ⟨comment, reason, hc, hr, rfl⟩

theorem setReportTotalAmount_ok (h : setReportTotalAmount snap cur clock r = .ok r') :
    r' = { r with
      totalAmount := sumOfItems snap r.tenantID r.reportID, updatedAt := clock.now } := by
  obtain ⟨total, ht, h⟩ := Except.bind_eq_ok.mp h
  unfold int4 at ht
  split at ht
  · cases ht
    exact (checkReport_eq_ok.mp h).2.symm
  · cases ht

/-- A new item has the description its column makes of the text. -/
theorem varchar_of_itemRow {p : CreateExpenseItemParams} (h : itemRow p cur clock o = .ok i) :
    varchar 500 p.description = .ok i.description := by
  obtain ⟨description, hdesc, h⟩ := Except.bind_eq_ok.mp h
  obtain ⟨_, _, h⟩ := Except.bind_eq_ok.mp h
  obtain ⟨_, _, h⟩ := Except.bind_eq_ok.mp h
  obtain ⟨_, _, h⟩ := Except.bind_eq_ok.mp h
  obtain ⟨_, _, h⟩ := Except.bind_eq_ok.mp h
  cases h
  exact hdesc

theorem itemRow_ok {p : CreateExpenseItemParams} (h : itemRow p cur clock o = .ok i) :
    ∃ description, (cur.reports.find p.reportID).isSome ∧ i = {
      itemID := o.uuid, reportID := p.reportID, tenantID := p.tenantID
      expenseDate := p.expenseDate, amount := p.amount, categoryID := p.categoryID
      description := description, createdAt := clock.now, updatedAt := clock.now
      deletedAt := none } := by
  obtain ⟨description, _, h⟩ := Except.bind_eq_ok.mp h
  obtain ⟨_, _, h⟩ := Except.bind_eq_ok.mp h
  obtain ⟨_, hr, h⟩ := Except.bind_eq_ok.mp h
  obtain ⟨_, _, h⟩ := Except.bind_eq_ok.mp h
  obtain ⟨_, _, h⟩ := Except.bind_eq_ok.mp h
  cases h
  exact ⟨description, references_eq_ok.mp hr, rfl⟩

theorem setItem_ok {p : UpdateExpenseItemParams} (h : setItem p snap cur clock i = .ok i') :
    ∃ description, i' = { i with
      expenseDate := p.expenseDate, amount := p.amount, categoryID := p.categoryID
      description := description, updatedAt := clock.now } := by
  obtain ⟨description, _, h⟩ := Except.bind_eq_ok.mp h
  obtain ⟨_, _, h⟩ := Except.bind_eq_ok.mp h
  obtain ⟨_, _, h⟩ := Except.bind_eq_ok.mp h
  cases h
  exact ⟨description, rfl⟩

theorem attachmentRow_ok {p : CreateAttachmentParams} (h : attachmentRow p cur clock o = .ok a) :
    a.attachmentID = p.attachmentID ∧ a.reportID = p.reportID ∧ a.tenantID = p.tenantID ∧
      a.itemID = p.itemID ∧ a.deletedAt = none := by
  obtain ⟨name, _, h⟩ := Except.bind_eq_ok.mp h
  obtain ⟨fileName, _, h⟩ := Except.bind_eq_ok.mp h
  obtain ⟨s3Key, _, h⟩ := Except.bind_eq_ok.mp h
  obtain ⟨_, _, h⟩ := Except.bind_eq_ok.mp h
  obtain ⟨_, _, h⟩ := Except.bind_eq_ok.mp h
  obtain ⟨_, _, h⟩ := Except.bind_eq_ok.mp h
  obtain ⟨_, _, h⟩ := Except.bind_eq_ok.mp h
  obtain ⟨_, _, h⟩ := Except.bind_eq_ok.mp h
  cases h
  exact ⟨rfl, rfl, rfl, rfl, rfl⟩

end

/-- **An update writes a version of the row it visits.** -/
theorem apply_id {targets : Database → List RowId}
    {apply : Database → Database → Oracle → RowId → Option (Except SqlError Version)}
    {resp : List Version → q.Result} {k : RowId} {v : Version}
    (hq : q.sem = .update targets apply resp) (h : apply snap cur clock k = some (.ok v)) :
    v.id = k := by
  cases q
  case updateReport p =>
    refine Relation.update_id hq h rfl fun r r' hr => ?_
    obtain ⟨_, _, rfl⟩ := setReport_ok hr
    rfl
  case updateReportStatus p =>
    refine Relation.update_id hq h rfl fun r r' hr => ?_
    obtain ⟨_, _, _, _, rfl⟩ := setReportStatus_ok hr
    rfl
  case updateReportTotalAmount t k =>
    refine Relation.update_id hq h rfl fun r r' hr => ?_
    rw [setReportTotalAmount_ok hr]
    rfl
  case updateExpenseItem p =>
    refine Relation.update_id hq h rfl fun r r' hr => ?_
    obtain ⟨_, rfl⟩ := setItem_ok hr
    rfl
  all_goals first
    | exact Relation.update_id hq h rfl fun r r' hr => by cases hr; rfl
    | cases hq

/-! ## The statements that write to a table -/

/-- The statements that write a report, with the row each starts from. -/
inductive ReportWrite (snap cur : Database) (clock o : Oracle) : Stmt → ExpenseReport → Prop where
  | create {p r} : reportRow p cur clock o = .ok r → ReportWrite snap cur clock o (.createReport p) r
  | edit {p r r'} : r ∈ cur.reports.rows → reportIs p.tenantID p.reportID r = true →
      r.updatedAt = p.updatedAt → setReport p snap cur clock r = .ok r' →
      ReportWrite snap cur clock o (.updateReport p) r'
  | status {p r r'} : r ∈ cur.reports.rows → reportIs p.tenantID p.reportID r = true →
      r.updatedAt = p.updatedAt → setReportStatus p snap cur clock r = .ok r' →
      ReportWrite snap cur clock o (.updateReportStatus p) r'
  | softDelete {t k r} : r ∈ cur.reports.rows → reportIs t k r = true →
      ReportWrite snap cur clock o (.softDeleteReport t k)
        { r with deletedAt := some clock.now, updatedAt := clock.now }
  | total {t k r r'} : r ∈ cur.reports.rows → r.tenantID = t → r.reportID = k →
      setReportTotalAmount snap cur clock r = .ok r' →
      ReportWrite snap cur clock o (.updateReportTotalAmount t k) r'

theorem report_writes {r : ExpenseReport} (h : q.sem.Writes snap cur clock o (.report r)) :
    ReportWrite snap cur clock o q r := by
  cases q
  case createReport p =>
    obtain ⟨x, hx, hv⟩ := Relation.writes_insert h rfl
    cases hv
    exact .create hx
  case updateReport p =>
    obtain ⟨x, y, hx, hc, hs, hv⟩ := Relation.writes_update h rfl
    cases hv
    simp only [Bool.and_eq_true, decide_eq_true_eq] at hc
    exact .edit ((reportRows.mem_rows _ _).mpr hx) hc.1 hc.2 hs
  case updateReportStatus p =>
    obtain ⟨x, y, hx, hc, hs, hv⟩ := Relation.writes_update h rfl
    cases hv
    simp only [Bool.and_eq_true, decide_eq_true_eq] at hc
    exact .status ((reportRows.mem_rows _ _).mpr hx) hc.1 hc.2 hs
  case softDeleteReport t k =>
    obtain ⟨x, y, hx, hc, hs, hv⟩ := Relation.writes_update h rfl
    cases hv
    cases hs
    exact .softDelete ((reportRows.mem_rows _ _).mpr hx) hc
  case updateReportTotalAmount t k =>
    obtain ⟨x, y, hx, hc, hs, hv⟩ := Relation.writes_update h rfl
    cases hv
    simp only [Bool.and_eq_true, decide_eq_true_eq] at hc
    exact .total ((reportRows.mem_rows _ _).mpr hx) hc.1 hc.2 hs
  all_goals first
    | exact absurd h Sem.writes_query
    | exact (Relation.writes_insert h rfl).elim fun _ hx => nomatch hx.2
    | exact (Relation.writes_update h rfl).elim fun _ hx => hx.elim fun _ hy => nomatch hy.2.2.2

/-- The statements that write an item. -/
inductive ItemWrite (snap cur : Database) (clock o : Oracle) : Stmt → ExpenseItem → Prop where
  | create {p i} : itemRow p cur clock o = .ok i →
      ItemWrite snap cur clock o (.createExpenseItem p) i
  | edit {p i i'} : i ∈ cur.items.rows → itemOf p.tenantID p.reportID i = true →
      setItem p snap cur clock i = .ok i' → ItemWrite snap cur clock o (.updateExpenseItem p) i'
  | softDelete {t k j i} : i ∈ cur.items.rows → itemOf t k i = true → i.itemID = j →
      ItemWrite snap cur clock o (.softDeleteExpenseItem t k j)
        { i with deletedAt := some clock.now, updatedAt := clock.now }
  | softDeleteAll {t k i} : i ∈ cur.items.rows → itemOf t k i = true →
      ItemWrite snap cur clock o (.softDeleteExpenseItemsByReportID t k)
        { i with deletedAt := some clock.now, updatedAt := clock.now }

theorem item_writes {i : ExpenseItem} (h : q.sem.Writes snap cur clock o (.item i)) :
    ItemWrite snap cur clock o q i := by
  cases q
  case createExpenseItem p =>
    obtain ⟨x, hx, hv⟩ := Relation.writes_insert h rfl
    cases hv
    exact .create hx
  case updateExpenseItem p =>
    obtain ⟨x, y, hx, hc, hs, hv⟩ := Relation.writes_update h rfl
    cases hv
    simp only [Bool.and_eq_true, decide_eq_true_eq] at hc
    exact .edit ((itemRows.mem_rows _ _).mpr hx) hc.1.1 hs
  case softDeleteExpenseItem t k j =>
    obtain ⟨x, y, hx, hc, hs, hv⟩ := Relation.writes_update h rfl
    cases hv
    cases hs
    simp only [Bool.and_eq_true, decide_eq_true_eq] at hc
    exact .softDelete ((itemRows.mem_rows _ _).mpr hx) hc.1 hc.2
  case softDeleteExpenseItemsByReportID t k =>
    obtain ⟨x, y, hx, hc, hs, hv⟩ := Relation.writes_update h rfl
    cases hv
    cases hs
    exact .softDeleteAll ((itemRows.mem_rows _ _).mpr hx) hc
  all_goals first
    | exact absurd h Sem.writes_query
    | exact (Relation.writes_insert h rfl).elim fun _ hx => nomatch hx.2
    | exact (Relation.writes_update h rfl).elim fun _ hx => hx.elim fun _ hy => nomatch hy.2.2.2

/-- The statements that write an attachment. -/
inductive AttachmentWrite (snap cur : Database) (clock o : Oracle) : Stmt → Attachment → Prop where
  | create {p a} : attachmentRow p cur clock o = .ok a →
      AttachmentWrite snap cur clock o (.createAttachment p) a
  | softDelete {t k j x a} : a ∈ cur.attachments.rows → attachmentOf t k a = true →
      AttachmentWrite snap cur clock o (.softDeleteAttachment t k j x)
        { a with deletedAt := some clock.now }
  | softDeleteOfItem {t k j a} : a ∈ cur.attachments.rows → attachmentOf t k a = true →
      AttachmentWrite snap cur clock o (.softDeleteAttachmentsByItemID t k j)
        { a with deletedAt := some clock.now }
  | softDeleteAll {t k a} : a ∈ cur.attachments.rows → attachmentOf t k a = true →
      AttachmentWrite snap cur clock o (.softDeleteAttachmentsByReportID t k)
        { a with deletedAt := some clock.now }

theorem attachment_writes {a : Attachment} (h : q.sem.Writes snap cur clock o (.attachment a)) :
    AttachmentWrite snap cur clock o q a := by
  cases q
  case createAttachment p =>
    obtain ⟨x, hx, hv⟩ := Relation.writes_insert h rfl
    cases hv
    exact .create hx
  case softDeleteAttachment t k j y =>
    obtain ⟨x, y, hx, hc, hs, hv⟩ := Relation.writes_update h rfl
    cases hv
    cases hs
    simp only [Bool.and_eq_true] at hc
    exact .softDelete ((attachmentRows.mem_rows _ _).mpr hx) hc.1.1
  case softDeleteAttachmentsByItemID t k j =>
    obtain ⟨x, y, hx, hc, hs, hv⟩ := Relation.writes_update h rfl
    cases hv
    cases hs
    simp only [Bool.and_eq_true] at hc
    exact .softDeleteOfItem ((attachmentRows.mem_rows _ _).mpr hx) hc.1
  case softDeleteAttachmentsByReportID t k =>
    obtain ⟨x, y, hx, hc, hs, hv⟩ := Relation.writes_update h rfl
    cases hv
    cases hs
    exact .softDeleteAll ((attachmentRows.mem_rows _ _).mpr hx) hc
  all_goals first
    | exact absurd h Sem.writes_query
    | exact (Relation.writes_insert h rfl).elim fun _ hx => nomatch hx.2
    | exact (Relation.writes_update h rfl).elim fun _ hx => hx.elim fun _ hy => nomatch hy.2.2.2

/-- The statements that write a user. -/
inductive UserWrite (snap cur : Database) (clock o : Oracle) : Stmt → User → Prop where
  | create {email name passwordHash u} : userRow email name passwordHash clock o = .ok u →
      UserWrite snap cur clock o (.createUser email name passwordHash) u
  | password {passwordHash u} : u ∈ cur.users.rows →
      UserWrite snap cur clock o (.updateUserPassword u.userID passwordHash)
        { u with passwordHash := passwordHash, updatedAt := clock.now }

theorem user_writes {u : User} (h : q.sem.Writes snap cur clock o (.user u)) :
    UserWrite snap cur clock o q u := by
  cases q
  case createUser email name passwordHash =>
    obtain ⟨x, hx, hv⟩ := Relation.writes_insert h rfl
    cases hv
    exact .create hx
  case updateUserPassword k passwordHash =>
    obtain ⟨x, y, hx, hc, hs, hv⟩ := Relation.writes_update h rfl
    cases hv
    cases hs
    simp only [decide_eq_true_eq] at hc
    subst hc
    exact .password ((userRows.mem_rows _ _).mpr hx)
  all_goals first
    | exact absurd h Sem.writes_query
    | exact (Relation.writes_insert h rfl).elim fun _ hx => nomatch hx.2
    | exact (Relation.writes_update h rfl).elim fun _ hx => hx.elim fun _ hy => nomatch hy.2.2.2

/-- A membership is written once, when it is created. -/
theorem membership_writes {m : TenantMembership}
    (h : q.sem.Writes snap cur clock o (.membership m)) :
    q = .createMembership m.tenantID m.userID m.role := by
  cases q
  case createMembership t u role =>
    obtain ⟨x, hx, hv⟩ := Relation.writes_insert h rfl
    obtain ⟨_, _, hx⟩ := Except.bind_eq_ok.mp hx
    obtain ⟨_, _, hx⟩ := Except.bind_eq_ok.mp hx
    cases hx
    cases hv
    rfl
  all_goals first
    | exact absurd h Sem.writes_query
    | exact (Relation.writes_insert h rfl).elim fun _ hx => nomatch hx.2
    | exact (Relation.writes_update h rfl).elim fun _ hx => hx.elim fun _ hy => nomatch hy.2.2.2

/-- A tenant is written once, when it is created. -/
theorem tenant_writes {x : Tenant}
    (h : q.sem.Writes snap cur clock o (.tenant x)) : ∃ name, q = .createTenant name := by
  cases q
  case createTenant name => exact ⟨name, rfl⟩
  all_goals first
    | exact absurd h Sem.writes_query
    | exact (Relation.writes_insert h rfl).elim fun _ hx => nomatch hx.2
    | exact (Relation.writes_update h rfl).elim fun _ hx => hx.elim fun _ hy => nomatch hy.2.2.2

/-- Nothing writes a category. -/
theorem not_category_writes {x : Category} :
    ¬ q.sem.Writes snap cur clock o (.category x) := by
  intro h
  cases q
  all_goals first
    | exact absurd h Sem.writes_query
    | exact (Relation.writes_insert h rfl).elim fun _ hx => nomatch hx.2
    | exact (Relation.writes_update h rfl).elim fun _ hx => hx.elim fun _ hy => nomatch hy.2.2.2

/-- The statements that write a refresh token. -/
inductive RefreshTokenWrite (snap cur : Database) (clock o : Oracle) : Stmt → RefreshToken → Prop where
  | create {jti u tokenHash expiresAt} :
      RefreshTokenWrite snap cur clock o (.createRefreshToken jti u tokenHash expiresAt)
        ⟨jti, u, tokenHash, false, expiresAt, clock.now⟩
  | revoke {x} : x ∈ cur.refreshTokens.rows →
      RefreshTokenWrite snap cur clock o (.revokeRefreshToken x.jti) { x with isRevoked := true }
  | revokeAll {x} : x ∈ cur.refreshTokens.rows → x.isRevoked = false →
      RefreshTokenWrite snap cur clock o (.revokeAllByUserID x.userID) { x with isRevoked := true }

theorem refreshToken_writes {x : RefreshToken}
    (h : q.sem.Writes snap cur clock o (.refreshToken x)) :
    RefreshTokenWrite snap cur clock o q x := by
  cases q
  case createRefreshToken jti u tokenHash expiresAt =>
    obtain ⟨y, hy, hv⟩ := Relation.writes_insert h rfl
    obtain ⟨_, _, hy⟩ := Except.bind_eq_ok.mp hy
    cases hy
    cases hv
    exact .create
  case revokeRefreshToken jti =>
    obtain ⟨y, z, hy, hc, hs, hv⟩ := Relation.writes_update h rfl
    cases hv
    cases hs
    simp only [decide_eq_true_eq] at hc
    subst hc
    exact .revoke ((refreshTokenRows.mem_rows _ _).mpr hy)
  case revokeAllByUserID u =>
    obtain ⟨y, z, hy, hc, hs, hv⟩ := Relation.writes_update h rfl
    cases hv
    cases hs
    simp only [Bool.and_eq_true, decide_eq_true_eq, Bool.not_eq_true'] at hc
    obtain ⟨rfl, hr⟩ := hc
    exact .revokeAll ((refreshTokenRows.mem_rows _ _).mpr hy) hr
  all_goals first
    | exact absurd h Sem.writes_query
    | exact (Relation.writes_insert h rfl).elim fun _ hx => nomatch hx.2
    | exact (Relation.writes_update h rfl).elim fun _ hx => hx.elim fun _ hy => nomatch hy.2.2.2

/-- The statements that write a password reset token. -/
inductive ResetTokenWrite (snap cur : Database) (clock o : Oracle) :
    Stmt → PasswordResetToken → Prop where
  | create {u tokenHash expiresAt} :
      ResetTokenWrite snap cur clock o (.createPasswordResetToken u tokenHash expiresAt)
        ⟨o.uuid, u, tokenHash, expiresAt, none, clock.now⟩
  | markUsed {x} : x ∈ cur.passwordResetTokens.rows →
      ResetTokenWrite snap cur clock o (.markPasswordResetTokenUsed x.id)
        { x with usedAt := some clock.now }

theorem resetToken_writes {x : PasswordResetToken}
    (h : q.sem.Writes snap cur clock o (.passwordResetToken x)) :
    ResetTokenWrite snap cur clock o q x := by
  cases q
  case createPasswordResetToken u tokenHash expiresAt =>
    obtain ⟨y, hy, hv⟩ := Relation.writes_insert h rfl
    obtain ⟨_, _, hy⟩ := Except.bind_eq_ok.mp hy
    cases hy
    cases hv
    exact .create
  case markPasswordResetTokenUsed k =>
    obtain ⟨y, z, hy, hc, hs, hv⟩ := Relation.writes_update h rfl
    cases hv
    cases hs
    simp only [decide_eq_true_eq] at hc
    subst hc
    exact .markUsed ((passwordResetTokenRows.mem_rows _ _).mpr hy)
  all_goals first
    | exact absurd h Sem.writes_query
    | exact (Relation.writes_insert h rfl).elim fun _ hx => nomatch hx.2
    | exact (Relation.writes_update h rfl).elim fun _ hx => hx.elim fun _ hy => nomatch hy.2.2.2

end Sql

end ExpenseSaas
