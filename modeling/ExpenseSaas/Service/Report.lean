import ExpenseSaas.Domain.Report
import ExpenseSaas.Postgres.Repository

/-!
# Reports and their workflow

`report_service.go` and `workflow_service.go`, with the parameters the handlers
have checked (`params.go`) and the response types of `dto.go`.

Looking up a name never fails an operation: the error is dropped and the name is
left out. The caches are those of the source, so a user is asked for once.
-/

namespace ExpenseSaas

open ReadCommitted Sql

/-! ## Parameters and responses -/

/-- What the handler lets through to `CreateReport`. -/
structure CreateReportParams where
  title : String
  periodStart : Date
  periodEnd : Date
  referenceReportID : Option UUID
  title_ne : title ≠ ""
  period_le : periodStart.le periodEnd = true

/-- What the handler lets through to `UpdateReport`. -/
structure UpdateReportParams where
  title : String
  periodStart : Date
  periodEnd : Date
  updatedAt : Timestamp
  title_ne : title ≠ ""
  period_le : periodStart.le periodEnd = true

structure UserSummary where
  id : UUID
  name : String
  deriving DecidableEq, Repr, Inhabited

structure CategoryDTO where
  id : UUID
  code : String
  nameJa : String
  sortOrder : Int
  deriving DecidableEq, Repr, Inhabited

structure AttachmentDTO where
  id : UUID
  itemID : UUID
  fileName : String
  fileSize : Int
  mimeType : MimeType
  createdAt : Timestamp
  deriving DecidableEq, Repr

structure ExpenseItemDTO where
  id : UUID
  reportID : UUID
  expenseDate : Date
  amount : Int
  category : CategoryDTO
  description : String
  attachments : List AttachmentDTO
  createdAt : Timestamp
  updatedAt : Timestamp
  deriving DecidableEq, Repr

structure ExpenseReportSummary where
  id : UUID
  title : String
  periodStart : String
  periodEnd : String
  status : ReportStatus
  totalAmount : Int
  submittedAt : Option Timestamp
  createdAt : Timestamp
  updatedAt : Timestamp
  submitter : Option UserSummary
  deriving DecidableEq, Repr

structure ExpenseReportDetail where
  id : UUID
  title : String
  periodStart : String
  periodEnd : String
  status : ReportStatus
  totalAmount : Int
  submitter : UserSummary
  referenceReportID : Option UUID
  submittedAt : Option Timestamp
  submittedBy : Option UserSummary
  approvedAt : Option Timestamp
  approvedBy : Option UserSummary
  approvalComment : Option String
  rejectedAt : Option Timestamp
  rejectedBy : Option UserSummary
  rejectionReason : Option String
  paidAt : Option Timestamp
  paidBy : Option UserSummary
  items : List ExpenseItemDTO
  createdAt : Timestamp
  updatedAt : Timestamp
  deriving DecidableEq, Repr

structure PendingReport where
  id : UUID
  title : String
  totalAmount : Int
  submittedAt : Timestamp
  submitter : UserSummary
  isOwnReport : Bool
  deriving DecidableEq, Repr

structure PayableReport where
  id : UUID
  title : String
  totalAmount : Int
  approvedAt : Timestamp
  submitter : UserSummary
  isOwnReport : Bool
  deriving DecidableEq, Repr

structure ProcessedReport where
  id : UUID
  title : String
  totalAmount : Int
  submitter : UserSummary
  decision : String
  decidedAt : Timestamp
  currentStatus : ReportStatus
  deriving DecidableEq, Repr

structure Pagination where
  currentPage : Int
  perPage : Int
  totalCount : Int
  totalPages : Int
  deriving DecidableEq, Repr

/-! ## Shared parts -/

def User.toSummary (u : User) : UserSummary := ⟨u.userID, u.name⟩

def Category.toDTO (c : Category) : CategoryDTO := ⟨c.categoryID, c.code, c.nameJa, c.sortOrder⟩

def Attachment.toDTO (a : Attachment) : AttachmentDTO :=
  ⟨a.attachmentID, a.itemID, a.fileName, a.fileSize, a.mimeType, a.createdAt⟩

/-- `toSummary`. -/
def ExpenseReport.toSummary (r : ExpenseReport) : ExpenseReportSummary where
  id := r.reportID
  title := r.title
  periodStart := r.periodStart.format
  periodEnd := r.periodEnd.format
  status := r.status
  totalAmount := r.totalAmount
  submittedAt := r.submittedAt
  createdAt := r.createdAt
  updatedAt := r.updatedAt
  submitter := none

/-- `buildPagination`. -/
def buildPagination (total page perPage : Int) : Pagination :=
  let perPage := if perPage ≤ 0 then 20 else perPage
  let page := if page ≤ 0 then 1 else page
  let totalPages := (total + perPage - 1).tdiv perPage
  ⟨page, perPage, total, if totalPages = 0 then 1 else totalPages⟩

/-- A user's name, if the user is there to be found. -/
def nameOf (userID : UUID) : Service (Option UserSummary) := do
  let u ← Svc.attempt (UserRepo.getByID .tx userID)
  match u with
  | .ok u => pure (some u.toSummary)
  | .error _ => pure none

/-- A user's name, if a user is named at all. -/
def nameOfOption : Option UUID → Service (Option UserSummary)
  | none => pure none
  | some userID => nameOf userID

/-- `userCache`: the names found so far. -/
abbrev UserCache : Type := List (UUID × UserSummary)

/-- Look a user up unless the cache has it. -/
def UserCache.fill (cache : UserCache) (userID : UUID) : Service UserCache :=
  match cache.lookup userID with
  | some _ => pure cache
  | none => do
      let u ← nameOf userID
      match u with
      | some u => pure ((userID, u) :: cache)
      | none => pure cache

/-- One entry of a list for each report, made with the name of its owner. -/
def withSubmitters {β : Type} (make : ExpenseReport → Option UserSummary → β) :
    UserCache → List ExpenseReport → Service (List β)
  | _, [] => pure []
  | cache, r :: rs => do
      let cache ← cache.fill r.userID
      let rest ← withSubmitters make cache rs
      pure (make r (cache.lookup r.userID) :: rest)

/-- `categoryCache`. -/
abbrev CategoryCache : Type := List (UUID × CategoryDTO)

/-- Look a category up unless the cache has it. -/
def CategoryCache.fill (tenantID : UUID) (cache : CategoryCache) (categoryID : UUID) :
    Service CategoryCache :=
  match cache.lookup categoryID with
  | some _ => pure cache
  | none => do
      let c ← Svc.attempt (CategoryRepo.getByID tenantID categoryID)
      match c with
      | .ok c => pure ((categoryID, c.toDTO) :: cache)
      | .error _ => pure cache

/-- The item as a response shows it. -/
def ExpenseItem.toDTO (i : ExpenseItem) (category : CategoryDTO) (attachments : List AttachmentDTO) :
    ExpenseItemDTO where
  id := i.itemID
  reportID := i.reportID
  expenseDate := i.expenseDate
  amount := i.amount
  category := category
  description := i.description
  attachments := attachments
  createdAt := i.createdAt
  updatedAt := i.updatedAt

/-- A report without the people and items that have to be looked up. -/
def ExpenseReport.toDetail (r : ExpenseReport) (submitter : UserSummary) : ExpenseReportDetail where
  id := r.reportID
  title := r.title
  periodStart := r.periodStart.format
  periodEnd := r.periodEnd.format
  status := r.status
  totalAmount := r.totalAmount
  submitter := submitter
  referenceReportID := r.referenceReportID
  submittedAt := r.submittedAt
  submittedBy := none
  approvedAt := r.approvedAt
  approvedBy := none
  approvalComment := r.approvalComment
  rejectedAt := r.rejectedAt
  rejectedBy := none
  rejectionReason := r.rejectionReason
  paidAt := r.paidAt
  paidBy := none
  items := []
  createdAt := r.createdAt
  updatedAt := r.updatedAt

namespace ReportService

/-- The items of a detail, each with its category and attachments. -/
def buildItems (actor : Actor) (reportID : UUID) :
    CategoryCache → List ExpenseItem → Service (List ExpenseItemDTO)
  | _, [] => pure []
  | cache, item :: items => do
      let cache ← cache.fill actor.tenantID item.categoryID
      let attachments ← errorf "reportService.buildDetail (attachments)"
        (AttachmentRepo.listByItemID actor.tenantID reportID item.itemID)
      let rest ← buildItems actor reportID cache items
      pure (item.toDTO ((cache.lookup item.categoryID).getD default)
        (attachments.map Attachment.toDTO) :: rest)

/-- `buildDetail`: the whole report with people, items and attachments. -/
def buildDetail (actor : Actor) (report : ExpenseReport) : Service ExpenseReportDetail := do
  let submitter ← errorf "reportService.buildDetail (submitter)"
    (UserRepo.getByID .tx report.userID)
  let submittedBy ← nameOfOption report.submittedBy
  let approvedBy ← nameOfOption report.approvedBy
  let rejectedBy ← nameOfOption report.rejectedBy
  let paidBy ← nameOfOption report.paidBy
  let items ← errorf "reportService.buildDetail (items)"
    (ItemRepo.listByReportID actor.tenantID report.reportID)
  let itemDTOs ← buildItems actor report.reportID [] items
  pure { report.toDetail submitter.toSummary with
    submittedBy := submittedBy
    approvedBy := approvedBy
    rejectedBy := rejectedBy
    paidBy := paidBy
    items := itemDTOs }

/-- The check of a resubmission: one's own rejected report. -/
def checkReference (actor : Actor) : Option UUID → Service Unit
  | none => pure ()
  | some reference => do
      let refReport ← ReportRepo.getByID actor.tenantID reference
      if refReport.userID ≠ actor.userID then fail .forbidden
      else if refReport.status ≠ .rejected then fail .invalidPeriod
      else pure ()

/-- Copy one item of the referenced report. -/
def copyItem (actor : Actor) (report : ExpenseReport) (item : ExpenseItem) : Service ExpenseItem :=
  errorf "reportService.CreateReport (create item)"
    (ItemRepo.create actor.tenantID report.reportID item.expenseDate item.amount item.categoryID
      item.description)

/-- Copy the items of the referenced report, if any, and read the new report again. -/
def copyItems (actor : Actor) (report : ExpenseReport) : Option UUID → Service ExpenseReport
  | none => pure report
  | some reference => do
      let refItems ← errorf "reportService.CreateReport (copy items)"
        (ItemRepo.listByReportID actor.tenantID reference)
      let _ ← Svc.each (copyItem actor report) refItems
      errorf "reportService.CreateReport (reload)"
        (ReportRepo.getByID actor.tenantID report.reportID)

/-- `CreateReport`. -/
def createReport (actor : Actor) (params : CreateReportParams) : Service ExpenseReportDetail := do
  checkReference actor params.referenceReportID
  let report ← errorf "reportService.CreateReport"
    (ReportRepo.create actor.tenantID actor.userID params.title params.periodStart params.periodEnd
      params.referenceReportID)
  let report ← copyItems actor report params.referenceReportID
  buildDetail actor report

/-- `GetReport`. -/
def getReport (actor : Actor) (reportID : UUID) : Service ExpenseReportDetail := do
  let report ← ReportRepo.getByID actor.tenantID reportID
  demand (Authorizer.canViewReport actor report)
  buildDetail actor report

/-- `ListMyReports`. -/
def listMyReports (actor : Actor) (params : ReportListParams) :
    Service (List ExpenseReportSummary × Pagination) := do
  let (reports, total) ← errorf "reportService.ListMyReports"
    (ReportRepo.list actor.tenantID { params with userID := some actor.userID })
  pure (reports.map ExpenseReport.toSummary, buildPagination total params.page params.perPage)

/-- `ListAllReports`. -/
def listAllReports (actor : Actor) (params : ReportListParams) :
    Service (List ExpenseReportSummary × Pagination) := do
  let params := { params with
    perPage := limitOf params.perPage
    page := if params.page ≤ 0 then 1 else params.page }
  let (reports, total) ← errorf "reportService.ListAllReports"
    (ReportRepo.list actor.tenantID params)
  let summaries ← withSubmitters (fun r u => { r.toSummary with submitter := u }) [] reports
  pure (summaries, buildPagination total params.page params.perPage)

/-- `UpdateReport`: a draft's title and period, for the version the client has seen. -/
def updateReport (actor : Actor) (reportID : UUID) (params : UpdateReportParams) :
    Service ExpenseReportDetail := do
  let report ← ReportRepo.getByID actor.tenantID reportID
  demand (Authorizer.canModifyReport actor report)
  demand report.canEdit
  if report.updatedAt ≠ params.updatedAt then fail .conflict
  else do
    let report ← ReportRepo.update { report with
      title := params.title, periodStart := params.periodStart, periodEnd := params.periodEnd }
    buildDetail actor report

/-- `DeleteReport`. -/
def deleteReport (actor : Actor) (reportID : UUID) : Service Unit := do
  let report ← ReportRepo.getByID actor.tenantID reportID
  demand (Authorizer.canModifyReport actor report)
  let now ← timeNow
  let _ ← demand (report.delete now)
  ReportRepo.softDelete actor.tenantID reportID

/-- `SubmitReport`. -/
def submitReport (actor : Actor) (reportID : UUID) (updatedAt : Timestamp) :
    Service ExpenseReportDetail := do
  let report ← ReportRepo.getByID actor.tenantID reportID
  demand (Authorizer.canModifyReport actor report)
  if report.updatedAt ≠ updatedAt then fail .conflict
  else do
    let hasApprover ← errorf "reportService.SubmitReport (check approver)"
      (MembershipRepo.hasApprover actor.tenantID)
    let items ← errorf "reportService.SubmitReport (list items)"
      (ItemRepo.listByReportID actor.tenantID reportID)
    let now ← timeNow
    let report ← demand (report.submit now actor.userID items hasApprover)
    let report ← ReportRepo.updateStatus report
    buildDetail actor report

end ReportService

namespace WorkflowService

/-- `ListPendingReports`. -/
def listPendingReports (actor : Actor) (params : WorkflowListParams) :
    Service (List PendingReport × Pagination) := do
  let (reports, total) ← errorf "workflowService.ListPendingReports"
    (ReportRepo.listPending actor.tenantID params)
  let entries ← withSubmitters (fun r u => {
    id := r.reportID, title := r.title, totalAmount := r.totalAmount
    submittedAt := r.submittedAt.getD default, submitter := u.getD default
    isOwnReport := r.userID = actor.userID : PendingReport }) [] reports
  pure (entries, buildPagination total params.page params.perPage)

/-- What the actor decided on a report, and when. -/
def decisionOf (actor : Actor) (r : ExpenseReport) : String × Timestamp :=
  if r.approvedBy = some actor.userID then ("approved", r.approvedAt.getD default)
  else if r.rejectedBy = some actor.userID then ("rejected", r.rejectedAt.getD default)
  else ("", default)

/-- `ListProcessedReports`. -/
def listProcessedReports (actor : Actor) (params : WorkflowListParams) :
    Service (List ProcessedReport × Pagination) := do
  let (reports, total) ← errorf "workflowService.ListProcessedReports"
    (ReportRepo.listProcessed actor.tenantID actor.userID params)
  let entries ← withSubmitters (fun r u => {
    id := r.reportID, title := r.title, totalAmount := r.totalAmount
    submitter := u.getD default, decision := (decisionOf actor r).1
    decidedAt := (decisionOf actor r).2, currentStatus := r.status : ProcessedReport }) [] reports
  pure (entries, buildPagination total params.page params.perPage)

/-- `ListPayableReports`. -/
def listPayableReports (actor : Actor) (params : WorkflowListParams) :
    Service (List PayableReport × Pagination) := do
  let (reports, total) ← errorf "workflowService.ListPayableReports"
    (ReportRepo.listPayable actor.tenantID params)
  let entries ← withSubmitters (fun r u => {
    id := r.reportID, title := r.title, totalAmount := r.totalAmount
    approvedAt := r.approvedAt.getD default, submitter := u.getD default
    isOwnReport := r.userID = actor.userID : PayableReport }) [] reports
  pure (entries, buildPagination total params.page params.perPage)

/-- `buildWorkflowDetail`: the report with people but without items. -/
def buildWorkflowDetail (report : ExpenseReport) : Service ExpenseReportDetail := do
  let submitter ← errorf "workflowService.buildWorkflowDetail (submitter)"
    (UserRepo.getByID .tx report.userID)
  let approvedBy ← nameOfOption report.approvedBy
  let rejectedBy ← nameOfOption report.rejectedBy
  let paidBy ← nameOfOption report.paidBy
  let submittedBy ← nameOfOption report.submittedBy
  pure { report.toDetail submitter.toSummary with
    submittedBy := submittedBy
    approvedBy := approvedBy
    rejectedBy := rejectedBy
    paidBy := paidBy }

/--
The three decisions on a report differ in who may take them and in the
transition: read, authorize, compare the version, transition, write back.
-/
def decideOn (actor : Actor) (reportID : UUID) (updatedAt : Timestamp)
    (authorize : Actor → ExpenseReport → Except DomainError Unit)
    (transition : Timestamp → ExpenseReport → Except DomainError ExpenseReport) :
    Service ExpenseReportDetail := do
  let report ← ReportRepo.getByID actor.tenantID reportID
  demand (authorize actor report)
  if report.updatedAt ≠ updatedAt then fail .conflict
  else do
    let now ← timeNow
    let report ← demand (transition now report)
    let report ← ReportRepo.updateStatus report
    buildWorkflowDetail report

/-- `ApproveReport`. -/
def approveReport (actor : Actor) (reportID : UUID) (comment : Option String)
    (updatedAt : Timestamp) : Service ExpenseReportDetail :=
  decideOn actor reportID updatedAt Authorizer.canApproveOrReject
    fun now r => r.approve now actor.userID comment

/-- `RejectReport`. -/
def rejectReport (actor : Actor) (reportID : UUID) (reason : String)
    (updatedAt : Timestamp) : Service ExpenseReportDetail :=
  decideOn actor reportID updatedAt Authorizer.canApproveOrReject
    fun now r => r.reject now actor.userID reason

/-- `MarkReportAsPaid`. -/
def markReportAsPaid (actor : Actor) (reportID : UUID) (updatedAt : Timestamp) :
    Service ExpenseReportDetail :=
  decideOn actor reportID updatedAt Authorizer.canMarkAsPaid
    fun now r => r.markAsPaid now actor.userID

end WorkflowService

end ExpenseSaas
