import Mathlib.Data.List.Sort
import ExpenseSaas.Postgres.Database

/-!
# The statements

Every query of `db/queries`, and the one raw statement of `refresh_token_repo.go`,
under its name there. A statement that returns at most one row answers an
`Option`, where `none` is `pgx.ErrNoRows`; `:many` answers a list and `:exec`
nothing.

`ORDER BY` is a list of sort keys followed by the rank the database happens to
give the row among equals. Parameter structures are those `sqlc` generates.
-/

namespace ExpenseSaas

open ReadCommitted

namespace Sql

/-! ## Parameters -/

structure CreateReportParams where
  tenantID : UUID
  userID : UUID
  title : String
  periodStart : Date
  periodEnd : Date
  referenceReportID : Option UUID

structure ListReportsParams where
  tenantID : UUID
  limit : Int
  offset : Int
  status : Option ReportStatus
  fromDate : Option Date
  toDate : Option Date
  /-- The owner: demanded by `ListReportsByUser`, optional in `ListAllReports`. -/
  userID : Option UUID

structure UpdateReportParams where
  tenantID : UUID
  reportID : UUID
  title : String
  periodStart : Date
  periodEnd : Date
  updatedAt : Timestamp

structure UpdateReportStatusParams where
  tenantID : UUID
  reportID : UUID
  status : ReportStatus
  submittedBy : Option UUID
  submittedAt : Option Timestamp
  approvedBy : Option UUID
  approvedAt : Option Timestamp
  approvalComment : Option String
  rejectedBy : Option UUID
  rejectedAt : Option Timestamp
  rejectionReason : Option String
  paidBy : Option UUID
  paidAt : Option Timestamp
  updatedAt : Timestamp

structure ListWorkflowParams where
  tenantID : UUID
  limit : Int
  offset : Int
  applicantName : Option Go.Str

structure ListProcessedReportsParams where
  tenantID : UUID
  approvedBy : UUID
  limit : Int
  offset : Int

structure CreateExpenseItemParams where
  reportID : UUID
  tenantID : UUID
  expenseDate : Date
  amount : Int
  categoryID : UUID
  description : String

structure UpdateExpenseItemParams where
  tenantID : UUID
  reportID : UUID
  itemID : UUID
  expenseDate : Date
  amount : Int
  categoryID : UUID
  description : String
  updatedAt : Timestamp

structure CreateAttachmentParams where
  attachmentID : UUID
  itemID : UUID
  reportID : UUID
  tenantID : UUID
  fileName : Go.Str
  fileSize : Int
  mimeType : MimeType
  s3Key : String

/-! ## Ordering and paging -/

/-- Sort keys compared from the left. -/
def keysLe : List Int → List Int → Bool
  | [], _ => true
  | _ :: _, [] => false
  | a :: as, b :: bs => a < b || (a = b && keysLe as bs)

/-- `ORDER BY`, the sort keys of a row given by `keys`. -/
def orderBy {R : Type} (keys : R → List Int) (rows : List R) : List R :=
  rows.insertionSort fun x y => keysLe (keys x) (keys y) = true

def asc (t : Int) : List Int := [t]

def desc (t : Int) : List Int := [-t]

/-- `DESC`: nulls come first. -/
def descNullsFirst : Option Timestamp → List Int
  | none => [0, 0]
  | some t => [1, -(t : Int)]

/-- `DESC NULLS LAST`. -/
def descNullsLast : Option Timestamp → List Int
  | none => [1, 0]
  | some t => [0, -(t : Int)]

/-- `LIMIT limit OFFSET offset`. -/
def page {R : Type} (limit offset : Int) (rows : List R) : Except SqlError (List R) :=
  if offset < 0 then .error .invalidRowCountInResultOffset
  else .ok ((rows.drop offset.toNat).take limit.toNat)

/-- `COUNT(*)::int`. -/
def count {R : Type} (rows : List R) : Except SqlError Int := int4 rows.length

/-- A parameter that is `NULL` or has to be met. -/
def given {α : Type} (p : Option α) (cond : α → Bool) : Bool := p.all cond

/-! ## Pattern matching -/

/-- `LIKE` with `%`, `_` and the escape `\`. -/
def like : List Char → List Char → Bool
  | [], [] => true
  | [], _ :: _ => false
  | '%' :: ps, cs => (List.range (cs.length + 1)).any fun n => like ps (cs.drop n)
  | '_' :: ps, _ :: cs => like ps cs
  | '_' :: _, [] => false
  | '\\' :: p :: ps, c :: cs => p = c && like ps cs
  | '\\' :: _ :: _, [] => false
  | p :: ps, c :: cs => p = c && like ps cs
  | _ :: _, [] => false

/-- The pattern parameter of a work list; what is not valid UTF-8 or has a zero byte is refused. -/
def patternParam (p : ListWorkflowParams) : Except SqlError Unit :=
  match p.applicantName with
  | none => .ok ()
  | some s => do
      let s ← utf8 s
      let _ ← text s
      .ok ()

/-- `name ILIKE '%' || pattern || '%'`. -/
def ilike (lower : Char → Char) (name pattern : String) : Bool :=
  like (('%' :: pattern.toList ++ ['%']).map lower) (name.toList.map lower)

/-! ## Selections -/

/-- The `WHERE` of `ListReportsByUser` and `ListAllReports`. -/
def ListReportsParams.selects (p : ListReportsParams) (r : ExpenseReport) : Bool :=
  r.tenantID = p.tenantID && r.deletedAt.isNone
    && given p.status (fun s => r.status = s)
    && given p.fromDate (fun d => d.le r.periodStart)
    && given p.toDate (fun d => r.periodEnd.le d)
    && given p.userID (fun u => r.userID = u)

/-- The `JOIN users` and `WHERE` of the two work lists, for reports in `status`. -/
def ListWorkflowParams.selects (p : ListWorkflowParams) (status : ReportStatus) (d : Database)
    (o : Oracle) (r : ExpenseReport) : Bool :=
  match d.users.find r.userID with
  | none => false
  | some u => r.tenantID = p.tenantID && r.status = status && r.deletedAt.isNone
      && given p.applicantName (fun s => (Go.decode s).any (ilike o.lower u.name))

/-- The `WHERE` of `ListProcessedReports`. -/
def ListProcessedReportsParams.selects (p : ListProcessedReportsParams) (r : ExpenseReport) :
    Bool :=
  r.tenantID = p.tenantID && (r.approvedBy = some p.approvedBy || r.rejectedBy = some p.approvedBy)
    && r.deletedAt.isNone

/-- The rows that count for a dashboard: live ones of the tenant, of one user if given. -/
def mine (t : UUID) (u : Option UUID) (r : ExpenseReport) : Bool :=
  r.tenantID = t && given u (fun u => r.userID = u) && r.deletedAt.isNone

/-- `GROUP BY status` with `COUNT(*)::int`. -/
def countByStatus (rows : List ExpenseReport) : Except SqlError (List (ReportStatus × Int)) :=
  let present := [ReportStatus.draft, .submitted, .approved, .rejected, .paid].filter fun s =>
    rows.any fun r => r.status = s
  present.mapM fun s => do
    let n ← count (rows.filter fun r => r.status = s)
    .ok (s, n)

/-- The distinct months of `rows`, latest first. -/
def monthsDesc (rows : List ExpenseReport) : List Nat :=
  ((rows.map fun r => r.periodStart.monthIndex).dedup).insertionSort (fun a b => b ≤ a)

/-- The first month that begins within `TIMESTAMPTZ`: December 4714 BC. -/
def firstMonth : Int := -4713 * 12 + 12

/-- And the last: December 294276. -/
def lastMonth : Int := 294276 * 12 + 12

/-- `date_trunc('month', now()) - (n::int - 1) * INTERVAL '1 month'`, as the number of a month. -/
def sinceMonth (clock : Oracle) (n : Int) : Except SqlError Int := do
  let back ← int4 (n - 1)
  let month := clock.today.monthIndex - back
  if firstMonth ≤ month ∧ month ≤ lastMonth then .ok month else .error .datetimeFieldOverflow

/-- `MonthlySummaryAll` and `MonthlySummaryByUser`: what was paid, month by month. -/
def monthlySummary (t : UUID) (u : Option UUID) (numMonths : Int) (d : Database) (clock : Oracle) :
    Except SqlError (List MonthlySummary) := do
  let since ← sinceMonth clock numMonths
  let rows := reportRows.filter (fun r => r.tenantID = t && given u (fun u => r.userID = u)
    && r.status = .paid && r.deletedAt.isNone
    && decide (since ≤ r.periodStart.monthIndex)) d
  (monthsDesc rows).mapM fun m => do
    let month := rows.filter fun r => r.periodStart.monthIndex = m
    let total ← int4 (month.map ExpenseReport.totalAmount).sum
    .ok ⟨(month.head?.map fun r => r.periodStart.yearMonth).getD "", total⟩

/-! ## Rows and columns written -/

/-- A reference column that is written: it may only change to a user that exists. -/
def userColumn (d : Database) (old new : Option UUID) : Except SqlError Unit :=
  references (old = new || new.all fun u => (d.users.find u).isSome)

/-- The constraints of `expense_reports`. -/
def checkReport (r : ExpenseReport) : Except SqlError ExpenseReport := do
  check (r.periodStart.le r.periodEnd)
  check (0 ≤ r.totalAmount)
  .ok r

/-- The row `CreateReport` inserts. -/
def reportRow (p : CreateReportParams) (d : Database) (clock o : Oracle) :
    Except SqlError ExpenseReport := do
  let title ← varchar 200 p.title
  let r ← checkReport {
    reportID := o.uuid, tenantID := p.tenantID, userID := p.userID, title := title,
    periodStart := p.periodStart, periodEnd := p.periodEnd, status := .draft, totalAmount := 0,
    referenceReportID := p.referenceReportID, submittedBy := none, submittedAt := none,
    approvedBy := none, approvedAt := none, approvalComment := none, rejectedBy := none,
    rejectedAt := none, rejectionReason := none, paidBy := none, paidAt := none,
    createdAt := clock.now, updatedAt := clock.now, deletedAt := none }
  references (d.tenants.find p.tenantID).isSome
  references (d.users.find p.userID).isSome
  references (p.referenceReportID.all fun k => (d.reports.find k).isSome)
  .ok r

/-- The row `CreateExpenseItem` inserts. -/
def itemRow (p : CreateExpenseItemParams) (d : Database) (clock o : Oracle) :
    Except SqlError ExpenseItem := do
  let description ← varchar 500 p.description
  check (0 < p.amount)
  references (d.reports.find p.reportID).isSome
  references (d.tenants.find p.tenantID).isSome
  references (d.categories.find p.categoryID).isSome
  .ok {
    itemID := o.uuid, reportID := p.reportID, tenantID := p.tenantID,
    expenseDate := p.expenseDate, amount := p.amount, categoryID := p.categoryID,
    description := description, createdAt := clock.now, updatedAt := clock.now, deletedAt := none }

/-- The row `CreateAttachment` inserts. -/
def attachmentRow (p : CreateAttachmentParams) (d : Database) (clock _o : Oracle) :
    Except SqlError Attachment := do
  let fileName ← utf8 p.fileName
  let fileName ← varchar 255 fileName
  let s3Key ← varchar 500 p.s3Key
  check (0 < p.fileSize ∧ p.fileSize ≤ 5242880)
  check p.mimeType.isValid
  references (d.items.find p.itemID).isSome
  references (d.reports.find p.reportID).isSome
  references (d.tenants.find p.tenantID).isSome
  .ok {
    attachmentID := p.attachmentID, itemID := p.itemID, reportID := p.reportID,
    tenantID := p.tenantID, fileName := fileName, fileSize := p.fileSize,
    mimeType := p.mimeType, s3Key := s3Key, createdAt := clock.now, deletedAt := none }

/-- The row `CreateUser` inserts. -/
def userRow (email name : String) (passwordHash : PasswordHash) (clock o : Oracle) :
    Except SqlError User := do
  let email ← varchar 254 email
  let name ← varchar 100 name
  .ok {
    userID := o.uuid, email := email, name := name, passwordHash := passwordHash,
    createdAt := clock.now, updatedAt := clock.now }

/-- The columns `UpdateReport` sets. -/
def setReport (p : UpdateReportParams) (_snap _cur : Database) (clock : Oracle)
    (r : ExpenseReport) : Except SqlError ExpenseReport := do
  let title ← varchar 200 p.title
  checkReport { r with
    title := title, periodStart := p.periodStart, periodEnd := p.periodEnd, updatedAt := clock.now }

/-- The columns `UpdateReportStatus` sets. -/
def setReportStatus (p : UpdateReportStatusParams) (_snap cur : Database) (clock : Oracle)
    (r : ExpenseReport) : Except SqlError ExpenseReport := do
  let approvalComment ← varcharNull 1000 p.approvalComment
  let rejectionReason ← varcharNull 1000 p.rejectionReason
  userColumn cur r.submittedBy p.submittedBy
  userColumn cur r.approvedBy p.approvedBy
  userColumn cur r.rejectedBy p.rejectedBy
  userColumn cur r.paidBy p.paidBy
  .ok { r with
    status := p.status
    submittedBy := p.submittedBy, submittedAt := p.submittedAt
    approvedBy := p.approvedBy, approvedAt := p.approvedAt, approvalComment := approvalComment
    rejectedBy := p.rejectedBy, rejectedAt := p.rejectedAt, rejectionReason := rejectionReason
    paidBy := p.paidBy, paidAt := p.paidAt
    updatedAt := clock.now }

/-- The live items of a report, as the subquery of `UpdateReportTotalAmount` selects them. -/
def liveItems (d : Database) (tenantID reportID : UUID) : List ExpenseItem :=
  itemRows.filter (fun i => i.reportID = reportID && i.tenantID = tenantID && i.deletedAt.isNone) d

/-- `COALESCE(SUM(amount), 0)` over the live items of a report. -/
def sumOfItems (d : Database) (tenantID reportID : UUID) : Int :=
  ((liveItems d tenantID reportID).map ExpenseItem.amount).sum

/-- The columns `UpdateReportTotalAmount` sets; the subquery reads the snapshot. -/
def setReportTotalAmount (snap _cur : Database) (clock : Oracle) (r : ExpenseReport) :
    Except SqlError ExpenseReport := do
  let total ← int4 (sumOfItems snap r.tenantID r.reportID)
  checkReport { r with totalAmount := total, updatedAt := clock.now }

/-- The columns `UpdateExpenseItem` sets. -/
def setItem (p : UpdateExpenseItemParams) (_snap cur : Database) (clock : Oracle)
    (i : ExpenseItem) : Except SqlError ExpenseItem := do
  let description ← varchar 500 p.description
  check (0 < p.amount)
  references (i.categoryID = p.categoryID || (cur.categories.find p.categoryID).isSome)
  .ok { i with
    expenseDate := p.expenseDate, amount := p.amount, categoryID := p.categoryID
    description := description, updatedAt := clock.now }

/-! ## Statements -/

/-- The statements the repositories issue. -/
inductive Stmt where
  /-- `SELECT set_config('app.current_tenant', $1, true)`. -/
  | setCurrentTenant (tenantID : UUID)
  | createReport (p : CreateReportParams)
  | getReportByID (tenantID reportID : UUID)
  | listReportsByUser (p : ListReportsParams)
  | countReportsByUser (p : ListReportsParams)
  | listAllReports (p : ListReportsParams)
  | countAllReports (p : ListReportsParams)
  | updateReport (p : UpdateReportParams)
  | updateReportStatus (p : UpdateReportStatusParams)
  | softDeleteReport (tenantID reportID : UUID)
  | listPendingReports (p : ListWorkflowParams)
  | countPendingReports (p : ListWorkflowParams)
  | listPayableReports (p : ListWorkflowParams)
  | countPayableReports (p : ListWorkflowParams)
  | listProcessedReports (p : ListProcessedReportsParams)
  | countProcessedReports (p : ListProcessedReportsParams)
  | countReportsByStatus (tenantID : UUID)
  | countMyReportsByStatus (tenantID userID : UUID)
  | monthlySummaryAll (tenantID : UUID) (numMonths : Int)
  | monthlySummaryByUser (tenantID userID : UUID) (numMonths : Int)
  | listRecentReports (tenantID userID : UUID) (limit : Int)
  | updateReportTotalAmount (tenantID reportID : UUID)
  | createExpenseItem (p : CreateExpenseItemParams)
  | getExpenseItemByID (tenantID reportID itemID : UUID)
  | listExpenseItemsByReportID (tenantID reportID : UUID)
  | updateExpenseItem (p : UpdateExpenseItemParams)
  | softDeleteExpenseItem (tenantID reportID itemID : UUID)
  | softDeleteExpenseItemsByReportID (tenantID reportID : UUID)
  | createAttachment (p : CreateAttachmentParams)
  | getAttachmentByID (tenantID reportID itemID attachmentID : UUID)
  | listAttachmentsByItemID (tenantID reportID itemID : UUID)
  | softDeleteAttachment (tenantID reportID itemID attachmentID : UUID)
  | softDeleteAttachmentsByItemID (tenantID reportID itemID : UUID)
  | softDeleteAttachmentsByReportID (tenantID reportID : UUID)
  | listActiveCategories (tenantID : UUID)
  | getCategoryByID (tenantID categoryID : UUID)
  | createTenant (companyName : String)
  | getTenantByID (tenantID : UUID)
  | createUser (email name : String) (passwordHash : PasswordHash)
  | getUserByID (userID : UUID)
  | getUserByEmail (email : String)
  | updateUserPassword (userID : UUID) (passwordHash : PasswordHash)
  | createMembership (tenantID userID : UUID) (role : Role)
  | getMembershipByUserID (userID : UUID)
  | listMembershipsByTenantID (tenantID : UUID)
  | hasApprover (tenantID : UUID)
  | countMembersByTenantID (tenantID : UUID)
  | createRefreshToken (jti userID : UUID) (tokenHash : Digest) (expiresAt : Timestamp)
  | getRefreshTokenByJTI (jti : UUID)
  | revokeRefreshToken (jti : UUID)
  | revokeAllByUserID (userID : UUID)
  | createPasswordResetToken (userID : UUID) (tokenHash : Digest) (expiresAt : Timestamp)
  | getPasswordResetTokenByHash (tokenHash : Digest)
  | markPasswordResetTokenUsed (id : UUID)

/-- What each statement answers. -/
@[reducible] def Stmt.Result : Stmt → Type
  | .createReport _ => ExpenseReport
  | .getReportByID .. => Option ExpenseReport
  | .listReportsByUser _ => List ExpenseReport
  | .countReportsByUser _ => Int
  | .listAllReports _ => List ExpenseReport
  | .countAllReports _ => Int
  | .updateReport _ => Option ExpenseReport
  | .updateReportStatus _ => Option ExpenseReport
  | .listPendingReports _ => List ExpenseReport
  | .countPendingReports _ => Int
  | .listPayableReports _ => List ExpenseReport
  | .countPayableReports _ => Int
  | .listProcessedReports _ => List ExpenseReport
  | .countProcessedReports _ => Int
  | .countReportsByStatus _ => List (ReportStatus × Int)
  | .countMyReportsByStatus .. => List (ReportStatus × Int)
  | .monthlySummaryAll .. => List MonthlySummary
  | .monthlySummaryByUser .. => List MonthlySummary
  | .listRecentReports .. => List ExpenseReport
  | .createExpenseItem _ => ExpenseItem
  | .getExpenseItemByID .. => Option ExpenseItem
  | .listExpenseItemsByReportID .. => List ExpenseItem
  | .updateExpenseItem _ => Option ExpenseItem
  | .createAttachment _ => Attachment
  | .getAttachmentByID .. => Option Attachment
  | .listAttachmentsByItemID .. => List Attachment
  | .listActiveCategories _ => List Category
  | .getCategoryByID .. => Option Category
  | .createTenant _ => Tenant
  | .getTenantByID _ => Option Tenant
  | .createUser .. => User
  | .getUserByID _ => Option User
  | .getUserByEmail _ => Option User
  | .createMembership .. => TenantMembership
  | .getMembershipByUserID _ => Option TenantMembership
  | .listMembershipsByTenantID _ => List TenantMembership
  | .hasApprover _ => Bool
  | .countMembersByTenantID _ => Int
  | .createRefreshToken .. => RefreshToken
  | .getRefreshTokenByJTI _ => Option RefreshToken
  | .createPasswordResetToken .. => PasswordResetToken
  | .getPasswordResetTokenByHash _ => Option PasswordResetToken
  | .setCurrentTenant _ => Unit
  | .softDeleteReport .. => Unit
  | .updateReportTotalAmount .. => Unit
  | .softDeleteExpenseItem .. => Unit
  | .softDeleteExpenseItemsByReportID .. => Unit
  | .softDeleteAttachment .. => Unit
  | .softDeleteAttachmentsByItemID .. => Unit
  | .softDeleteAttachmentsByReportID .. => Unit
  | .updateUserPassword .. => Unit
  | .revokeRefreshToken _ => Unit
  | .revokeAllByUserID _ => Unit
  | .markPasswordResetTokenUsed _ => Unit

/-- The meaning of a statement, in the terms of the sessions that run it. -/
abbrev Meaning (β : Type) : Type := Sem Database Oracle Version RowId SqlError β

/-- A page of reports in the order of `keys`. -/
def pageOf (limit offset : Int) (keys : ExpenseReport → List Int) (o : Oracle)
    (rows : List ExpenseReport) : Except SqlError (List ExpenseReport) :=
  page limit offset (orderBy (fun r => keys r ++ asc (o.rank r.reportID)) rows)

/-- The order of `ListAllReports`. -/
def allReportsKeys (r : ExpenseReport) : List Int :=
  descNullsLast r.submittedAt ++ desc r.createdAt ++ desc r.reportID

/-- The order of `ListProcessedReports`. -/
def processedKeys (r : ExpenseReport) : List Int :=
  descNullsFirst (r.approvedAt.or r.rejectedAt) ++ desc r.reportID

/-- `WHERE tenant_id = t AND report_id = r AND deleted_at IS NULL` on reports. -/
def reportIs (t k : UUID) (r : ExpenseReport) : Bool :=
  r.tenantID = t && r.reportID = k && r.deletedAt.isNone

/-- `WHERE tenant_id = t AND report_id = r AND deleted_at IS NULL` on items. -/
def itemOf (t k : UUID) (i : ExpenseItem) : Bool :=
  i.tenantID = t && i.reportID = k && i.deletedAt.isNone

/-- `WHERE tenant_id = t AND report_id = r AND deleted_at IS NULL` on attachments. -/
def attachmentOf (t k : UUID) (a : Attachment) : Bool :=
  a.tenantID = t && a.reportID = k && a.deletedAt.isNone

/-- `:exec`: no row is answered. -/
def exec {R : Type} (_ : List R) : Unit := ()

/-- **The meaning of every statement.** -/
def Stmt.sem : (q : Stmt) → Meaning q.Result
  | .setCurrentTenant _ => .query fun _ _ _ => .ok ()
  | .createReport p => reportRows.insert (reportRow p)
  | .getReportByID t k => .query fun d _ _ => .ok (reportRows.first (reportIs t k) d)
  | .listReportsByUser p => .query fun d _ o =>
      pageOf p.limit p.offset (fun r => desc r.createdAt) o (reportRows.filter p.selects d)
  | .countReportsByUser p => .query fun d _ _ => count (reportRows.filter p.selects d)
  | .listAllReports p => .query fun d _ o =>
      pageOf p.limit p.offset allReportsKeys o (reportRows.filter p.selects d)
  | .countAllReports p => .query fun d _ _ => count (reportRows.filter p.selects d)
  | .updateReport p => reportRows.update
      (fun r => reportIs p.tenantID p.reportID r && r.updatedAt = p.updatedAt) (setReport p)
      List.head?
  | .updateReportStatus p => reportRows.update
      (fun r => reportIs p.tenantID p.reportID r && r.updatedAt = p.updatedAt)
      (setReportStatus p) List.head?
  | .softDeleteReport t k => reportRows.update (reportIs t k)
      (fun _ _ clock r => .ok { r with deletedAt := some clock.now, updatedAt := clock.now })
      exec
  | .listPendingReports p => .query fun d _ o => do
      patternParam p
      pageOf p.limit p.offset (fun r => descNullsFirst r.submittedAt) o
        (reportRows.filter (p.selects .submitted d o) d)
  | .countPendingReports p => .query fun d _ o => do
      patternParam p
      count (reportRows.filter (p.selects .submitted d o) d)
  | .listPayableReports p => .query fun d _ o => do
      patternParam p
      pageOf p.limit p.offset (fun r => descNullsFirst r.approvedAt) o
        (reportRows.filter (p.selects .approved d o) d)
  | .countPayableReports p => .query fun d _ o => do
      patternParam p
      count (reportRows.filter (p.selects .approved d o) d)
  | .listProcessedReports p => .query fun d _ o =>
      pageOf p.limit p.offset processedKeys o (reportRows.filter p.selects d)
  | .countProcessedReports p => .query fun d _ _ => count (reportRows.filter p.selects d)
  | .countReportsByStatus t => .query fun d _ _ => countByStatus (reportRows.filter (mine t none) d)
  | .countMyReportsByStatus t u => .query fun d _ _ =>
      countByStatus (reportRows.filter (mine t (some u)) d)
  | .monthlySummaryAll t n => .query fun d clock _ => monthlySummary t none n d clock
  | .monthlySummaryByUser t u n => .query fun d clock _ => monthlySummary t (some u) n d clock
  | .listRecentReports t u limit => .query fun d _ o =>
      pageOf limit 0 (fun r => desc r.updatedAt) o (reportRows.filter (mine t (some u)) d)
  | .updateReportTotalAmount t k => reportRows.update
      (fun r => r.tenantID = t && r.reportID = k) setReportTotalAmount exec
  | .createExpenseItem p => itemRows.insert (itemRow p)
  | .getExpenseItemByID t k i => .query fun d _ _ =>
      .ok (itemRows.first (fun x => itemOf t k x && x.itemID = i) d)
  | .listExpenseItemsByReportID t k => .query fun d _ o =>
      .ok (orderBy (fun i => asc i.createdAt ++ asc (o.rank i.itemID)) (itemRows.filter (itemOf t k) d))
  | .updateExpenseItem p => itemRows.update
      (fun x => itemOf p.tenantID p.reportID x && x.itemID = p.itemID && x.updatedAt = p.updatedAt)
      (setItem p) List.head?
  | .softDeleteExpenseItem t k i => itemRows.update (fun x => itemOf t k x && x.itemID = i)
      (fun _ _ clock x => .ok { x with deletedAt := some clock.now, updatedAt := clock.now })
      exec
  | .softDeleteExpenseItemsByReportID t k => itemRows.update (itemOf t k)
      (fun _ _ clock x => .ok { x with deletedAt := some clock.now, updatedAt := clock.now })
      exec
  | .createAttachment p => attachmentRows.insert (attachmentRow p)
  | .getAttachmentByID t k i a => .query fun d _ _ =>
      .ok (attachmentRows.first
        (fun x => attachmentOf t k x && x.itemID = i && x.attachmentID = a) d)
  | .listAttachmentsByItemID t k i => .query fun d _ o =>
      .ok (orderBy (fun a => asc a.createdAt ++ asc (o.rank a.attachmentID))
        (attachmentRows.filter (fun x => attachmentOf t k x && x.itemID = i) d))
  | .softDeleteAttachment t k i a => attachmentRows.update
      (fun x => attachmentOf t k x && x.itemID = i && x.attachmentID = a)
      (fun _ _ clock x => .ok { x with deletedAt := some clock.now }) exec
  | .softDeleteAttachmentsByItemID t k i => attachmentRows.update
      (fun x => attachmentOf t k x && x.itemID = i)
      (fun _ _ clock x => .ok { x with deletedAt := some clock.now }) exec
  | .softDeleteAttachmentsByReportID t k => attachmentRows.update (attachmentOf t k)
      (fun _ _ clock x => .ok { x with deletedAt := some clock.now }) exec
  | .listActiveCategories t => .query fun d _ o =>
      .ok (orderBy (fun c => asc c.sortOrder ++ asc (o.rank c.categoryID))
        (categoryRows.filter (fun c => c.isActive && (c.tenantID = none || c.tenantID = some t)) d))
  | .getCategoryByID t k => .query fun d _ _ =>
      .ok (categoryRows.first
        (fun c => c.categoryID = k && c.isActive && (c.tenantID = some t || c.tenantID = none)) d)
  | .createTenant companyName => tenantRows.insert fun _ clock o => do
      let companyName ← varchar 200 companyName
      .ok ⟨o.uuid, companyName, clock.now, clock.now⟩
  | .getTenantByID t => .query fun d _ _ => .ok (tenantRows.first (fun x => x.tenantID = t) d)
  | .createUser email name passwordHash => userRows.insert fun _ clock o =>
      userRow email name passwordHash clock o
  | .getUserByID u => .query fun d _ _ => .ok (userRows.first (fun x => x.userID = u) d)
  | .getUserByEmail email => .query fun d _ _ => do
      let email ← text email
      .ok (userRows.first (fun x => x.email = email) d)
  | .updateUserPassword u passwordHash => userRows.update (fun x => x.userID = u)
      (fun _ _ clock x => .ok { x with passwordHash := passwordHash, updatedAt := clock.now })
      exec
  | .createMembership t u role => membershipRows.insert fun d clock _ => do
      references (d.tenants.find t).isSome
      references (d.users.find u).isSome
      .ok ⟨t, u, role, clock.now, clock.now⟩
  | .getMembershipByUserID u => .query fun d _ _ =>
      .ok (membershipRows.first (fun m => m.userID = u) d)
  | .listMembershipsByTenantID t => .query fun d _ o =>
      .ok (orderBy (fun m => asc m.createdAt ++ asc (o.rank m.userID))
        (membershipRows.filter (fun m => m.tenantID = t) d))
  | .hasApprover t => .query fun d _ _ =>
      .ok ((membershipRows.filter (fun m => m.tenantID = t) d).any fun m => m.role = .approver)
  | .countMembersByTenantID t => .query fun d _ _ =>
      count (membershipRows.filter (fun m => m.tenantID = t) d)
  | .createRefreshToken jti u tokenHash expiresAt => refreshTokenRows.insert fun d clock _ => do
      references (d.users.find u).isSome
      .ok ⟨jti, u, tokenHash, false, expiresAt, clock.now⟩
  | .getRefreshTokenByJTI jti => .query fun d _ _ =>
      .ok (refreshTokenRows.first (fun x => x.jti = jti) d)
  | .revokeRefreshToken jti => refreshTokenRows.update (fun x => x.jti = jti)
      (fun _ _ _ x => .ok { x with isRevoked := true }) exec
  | .revokeAllByUserID u => refreshTokenRows.update (fun x => x.userID = u && !x.isRevoked)
      (fun _ _ _ x => .ok { x with isRevoked := true }) exec
  | .createPasswordResetToken u tokenHash expiresAt =>
      passwordResetTokenRows.insert fun d clock o => do
        references (d.users.find u).isSome
        .ok ⟨o.uuid, u, tokenHash, expiresAt, none, clock.now⟩
  | .getPasswordResetTokenByHash tokenHash => .query fun d clock _ =>
      .ok (passwordResetTokenRows.first
        (fun x => x.tokenHash = tokenHash && x.usedAt.isNone && decide (clock.now < x.expiresAt)) d)
  | .markPasswordResetTokenUsed id => passwordResetTokenRows.update (fun x => x.id = id)
      (fun _ _ clock x => .ok { x with usedAt := some clock.now }) exec

end Sql

end ExpenseSaas
