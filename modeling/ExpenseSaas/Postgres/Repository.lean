import ExpenseSaas.Postgres.Statements

/-!
# Repositories

The repositories of `internal/repository/postgres`, as services over the
statements. A service may also call the world outside the database (`Ext`), and
it may return early with a Go error.

Which connection a repository uses depends on the request context: inside a
transaction a statement is just issued, on a bare connection it is a transaction
of its own. `DBTX` is that choice.
-/

namespace ExpenseSaas

open ReadCommitted Sql

/-- Calls to something other than the database. -/
inductive Ext where
  /-- `time.Now()`. -/
  | timeNow
  /-- `uuid.New()`. -/
  | newUUID
  /-- The random salt of a new Argon2id hash. -/
  | salt
  /-- `rand.Read` of 32 bytes, in hex. -/
  | randRead
  /-- The RSA signature of a token. -/
  | sign
  /-- `storage.Upload`. -/
  | upload (key : String) (content : List UInt8) (contentType : MimeType)
  /-- `storage.PresignGetObject`. -/
  | presignGetObject (key fileName : String) (mimeType : MimeType) (disposition : String)
      (expiry : Nat)
  /-- A connection of the owner pool is taken, and waited for if need be. -/
  | acquire
  /-- The connection goes back to the pool. -/
  | release

/-- What the outside answers. -/
@[reducible] def Ext.Result : Ext → Type
  | .timeNow => Timestamp
  | .newUUID => UUID
  | .salt => Except GoError Nat
  | .randRead => Except GoError String
  | .sign => Except GoError Unit
  | .upload .. => Except GoError Unit
  | .presignGetObject .. => Except GoError (String × Timestamp)
  | .acquire => Except GoError Unit
  | .release => Unit

/-- `x`, unless the call fails. -/
def Oracle.unless {α : Type} (o : Oracle) (x : α) : Except GoError α :=
  match o.failure with
  | none => .ok x
  | some e => .error (.other e)

/-- The answer the surroundings give. -/
def Ext.answer (o : Oracle) : (x : Ext) → x.Result
  | .timeNow => o.now
  | .newUUID => o.uuid
  | .salt => o.unless o.salt
  | .randRead => o.unless o.random
  | .sign => o.unless ()
  | .upload .. => o.unless ()
  | .presignGetObject _ _ _ _ expiry => o.unless (o.random, o.now + expiry)
  | .acquire => o.unless ()
  | .release => ()

/-- What a program may issue. -/
abbrev Command : Type := Cmd Stmt Ext

/-- And what it is answered. -/
abbrev Command.Resp : Command → Type := Cmd.Resp Stmt.Result Ext.Result SqlError

/-- A program. -/
abbrev Program (α : Type) : Type := Prog Command Command.Resp α

/-- A service method: a program that may return early with an error. -/
abbrev Service (α : Type) : Type := Svc Command Command.Resp GoError α

section

variable {α : Type}

/-- `return domain.Err...`. -/
def fail (e : DomainError) : Service α := throw (.sentinel e)

/-- Return early with the error of a domain check. -/
def demand (x : Except DomainError α) : Service α := Svc.ofExcept (x.mapError .sentinel)

/-- `fmt.Errorf("context: %w", err)`. -/
def errorf (context : String) (x : Service α) : Service α := Svc.mapError (.wrap context) x

/-- An answer that may be an error. -/
def orFail (x : Except GoError α) : Service α := Svc.ofExcept x

/-- An answer of the database. -/
def orSqlError (x : Except SqlError α) : Service α := Svc.ofExcept (x.mapError .sql)

end

/-- Issue a command. -/
def call (c : Command) : Service (Command.Resp c) := Svc.call c

/-- Call the outside. -/
def ext (x : Ext) : Service x.Result := call (.ext x)

/-- `time.Now()`. -/
def timeNow : Service Timestamp := ext .timeNow

/-- Issue a statement in the open transaction. -/
def sql (q : Stmt) : Service q.Result := do
  let r ← call (.sql q)
  orSqlError r

/-- Issue a statement on a bare connection, where it is a transaction of its own. -/
def autocommit (q : Stmt) : Service q.Result := do
  let b ← call .begin
  orSqlError b
  let r ← call (.sql q)
  match r with
  | .ok x => do
      let c ← call .commit
      let _ ← orSqlError c
      pure x
  | .error e => do
      let _ ← call .rollback
      throw (.sql e)

/-- What the request context holds: a transaction, or a connection without one. -/
inductive DBTX where
  | tx
  | conn
  deriving DecidableEq

/-- `queries(ctx, pool)`, with the statement to issue. -/
def DBTX.exec (db : DBTX) (q : Stmt) : Service q.Result := match db with
  | .tx => sql q
  | .conn => autocommit q

/-- A row, where `pgx.ErrNoRows` is an error of the domain. -/
def orNoRows {R : Type} (e : DomainError) : Option R → Service R
  | some r => pure r
  | none => fail e

/-! ## Reports -/

/-- `ReportListParams`. -/
structure ReportListParams where
  userID : Option UUID
  status : Option ReportStatus
  fromDate : Option Date
  toDate : Option Date
  submitterID : Option UUID
  page : Int
  perPage : Int
  deriving Inhabited

/-- `WorkflowListParams`. -/
structure WorkflowListParams where
  applicantName : Option Go.Str
  page : Int
  perPage : Int
  deriving Inhabited

/-- The rows per page a list uses. -/
def limitOf (perPage : Int) : Int :=
  let perPage := if perPage ≤ 0 then 20 else perPage
  if perPage > 100 then 100 else perPage

/-- The offset a list uses, as the query receives it. -/
def offsetOf (page perPage : Int) : Int :=
  let page := if page ≤ 0 then 1 else page
  int32 ((page - 1) * limitOf perPage)

namespace ReportRepo

def create (tenantID userID : UUID) (title : String) (periodStart periodEnd : Date)
    (referenceReportID : Option UUID) : Service ExpenseReport :=
  errorf "reportRepo.Create"
    (sql (.createReport ⟨tenantID, userID, title, periodStart, periodEnd, referenceReportID⟩))

def getByID (tenantID reportID : UUID) : Service ExpenseReport := do
  let row ← errorf "reportRepo.GetByID" (sql (.getReportByID tenantID reportID))
  orNoRows .resourceNotFound row

def list (tenantID : UUID) (params : ReportListParams) : Service (List ExpenseReport × Int) :=
  let p (userID : Option UUID) : ListReportsParams :=
    ⟨tenantID, int32 (limitOf params.perPage), offsetOf params.page params.perPage,
      params.status, params.fromDate, params.toDate, userID⟩
  errorf "reportRepo.List" <| match params.userID with
    | some u => do
        let rows ← sql (.listReportsByUser (p (some u)))
        let total ← sql (.countReportsByUser (p (some u)))
        pure (rows, total)
    | none => do
        let rows ← sql (.listAllReports (p params.submitterID))
        let total ← sql (.countAllReports (p params.submitterID))
        pure (rows, total)

/-- Writes the editable fields back; the row the entity becomes is the stored one. -/
def update (report : ExpenseReport) : Service ExpenseReport := do
  let row ← errorf "reportRepo.Update" (sql (.updateReport
    ⟨report.tenantID, report.reportID, report.title, report.periodStart, report.periodEnd,
      report.updatedAt⟩))
  orNoRows .conflict row

/-- Soft-deletes the items, the attachments and the report, in this order. -/
def softDelete (tenantID reportID : UUID) : Service Unit := do
  errorf "reportRepo.SoftDelete (items)" (sql (.softDeleteExpenseItemsByReportID tenantID reportID))
  errorf "reportRepo.SoftDelete (attachments)"
    (sql (.softDeleteAttachmentsByReportID tenantID reportID))
  errorf "reportRepo.SoftDelete" (sql (.softDeleteReport tenantID reportID))

/-- Writes the status and all audit fields back, for the version the entity was read at. -/
def updateStatus (report : ExpenseReport) : Service ExpenseReport := do
  let row ← errorf "reportRepo.UpdateStatus" (sql (.updateReportStatus {
    tenantID := report.tenantID
    reportID := report.reportID
    status := report.status
    submittedBy := report.submittedBy
    submittedAt := report.submittedAt
    approvedBy := report.approvedBy
    approvedAt := report.approvedAt
    approvalComment := report.approvalComment
    rejectedBy := report.rejectedBy
    rejectedAt := report.rejectedAt
    rejectionReason := report.rejectionReason
    paidBy := report.paidBy
    paidAt := report.paidAt
    updatedAt := report.updatedAt }))
  orNoRows .conflict row

/-- The counts by status; a status without reports counts zero. -/
def countByStatus (tenantID : UUID) (userID : Option UUID) : Service (ReportStatus → Int) := do
  let rows ← errorf "reportRepo.CountByStatus" <| match userID with
    | some u => sql (.countMyReportsByStatus tenantID u)
    | none => sql (.countReportsByStatus tenantID)
  pure fun s => (rows.lookup s).getD 0

def monthlySummary (tenantID : UUID) (userID : Option UUID) (numMonths : Int) :
    Service (List MonthlySummary) :=
  errorf "reportRepo.MonthlySummary" <| match userID with
    | some u => sql (.monthlySummaryByUser tenantID u (int32 numMonths))
    | none => sql (.monthlySummaryAll tenantID (int32 numMonths))

def listPending (tenantID : UUID) (params : WorkflowListParams) :
    Service (List ExpenseReport × Int) := do
  let p : ListWorkflowParams := ⟨tenantID, int32 (limitOf params.perPage),
    offsetOf params.page params.perPage, params.applicantName⟩
  let rows ← errorf "reportRepo.ListPending" (sql (.listPendingReports p))
  let total ← errorf "reportRepo.ListPending (count)" (sql (.countPendingReports p))
  pure (rows, total)

def listPayable (tenantID : UUID) (params : WorkflowListParams) :
    Service (List ExpenseReport × Int) := do
  let p : ListWorkflowParams := ⟨tenantID, int32 (limitOf params.perPage),
    offsetOf params.page params.perPage, params.applicantName⟩
  let rows ← errorf "reportRepo.ListPayable" (sql (.listPayableReports p))
  let total ← errorf "reportRepo.ListPayable (count)" (sql (.countPayableReports p))
  pure (rows, total)

def listProcessed (tenantID approverID : UUID) (params : WorkflowListParams) :
    Service (List ExpenseReport × Int) := do
  let p : ListProcessedReportsParams := ⟨tenantID, approverID, int32 (limitOf params.perPage),
    offsetOf params.page params.perPage⟩
  let rows ← errorf "reportRepo.ListProcessed" (sql (.listProcessedReports p))
  let total ← errorf "reportRepo.ListProcessed (count)" (sql (.countProcessedReports p))
  pure (rows, total)

def listRecentReports (tenantID userID : UUID) (limit : Int) : Service (List ExpenseReport) :=
  errorf "reportRepo.ListRecentReports" (sql (.listRecentReports tenantID userID (int32 limit)))

end ReportRepo

/-! ## Items -/

namespace ItemRepo

/-- Inserts the item and recomputes the total of its report. -/
def create (tenantID reportID : UUID) (expenseDate : Date) (amount : Int) (categoryID : UUID)
    (description : String) : Service ExpenseItem := do
  let row ← errorf "itemRepo.Create" (sql (.createExpenseItem
    ⟨reportID, tenantID, expenseDate, int32 amount, categoryID, description⟩))
  errorf "itemRepo.Create (update total)" (sql (.updateReportTotalAmount tenantID reportID))
  pure row

def getByID (tenantID reportID itemID : UUID) : Service ExpenseItem := do
  let row ← errorf "itemRepo.GetByID" (sql (.getExpenseItemByID tenantID reportID itemID))
  orNoRows .resourceNotFound row

def listByReportID (tenantID reportID : UUID) : Service (List ExpenseItem) :=
  errorf "itemRepo.ListByReportID" (sql (.listExpenseItemsByReportID tenantID reportID))

/-- Writes the item back and recomputes the total of its report. -/
def update (item : ExpenseItem) : Service ExpenseItem := do
  let row ← errorf "itemRepo.Update" (sql (.updateExpenseItem
    ⟨item.tenantID, item.reportID, item.itemID, item.expenseDate, int32 item.amount,
      item.categoryID, item.description, item.updatedAt⟩))
  let item ← orNoRows .conflict row
  errorf "itemRepo.Update (update total)"
    (sql (.updateReportTotalAmount item.tenantID item.reportID))
  pure item

/-- Soft-deletes the attachments and the item, and recomputes the total of the report. -/
def softDelete (tenantID reportID itemID : UUID) : Service Unit := do
  errorf "itemRepo.SoftDelete (attachments)"
    (sql (.softDeleteAttachmentsByItemID tenantID reportID itemID))
  errorf "itemRepo.SoftDelete" (sql (.softDeleteExpenseItem tenantID reportID itemID))
  errorf "itemRepo.SoftDelete (update total)" (sql (.updateReportTotalAmount tenantID reportID))

end ItemRepo

/-! ## Attachments -/

namespace AttachmentRepo

def create (attachmentID tenantID reportID itemID : UUID) (fileName : Go.Str) (fileSize : Int)
    (mimeType : MimeType) (s3Key : String) : Service Attachment :=
  errorf "attachmentRepo.Create" (sql (.createAttachment
    ⟨attachmentID, itemID, reportID, tenantID, fileName, int32 fileSize, mimeType, s3Key⟩))

def getByID (tenantID reportID itemID attachmentID : UUID) : Service Attachment := do
  let row ← errorf "attachmentRepo.GetByID"
    (sql (.getAttachmentByID tenantID reportID itemID attachmentID))
  orNoRows .resourceNotFound row

def listByItemID (tenantID reportID itemID : UUID) : Service (List Attachment) :=
  errorf "attachmentRepo.ListByItemID" (sql (.listAttachmentsByItemID tenantID reportID itemID))

def softDelete (tenantID reportID itemID attachmentID : UUID) : Service Unit :=
  errorf "attachmentRepo.SoftDelete"
    (sql (.softDeleteAttachment tenantID reportID itemID attachmentID))

end AttachmentRepo

/-! ## Categories, tenants, members and users -/

namespace CategoryRepo

def listActive (tenantID : UUID) : Service (List Category) :=
  errorf "categoryRepo.ListActive" (sql (.listActiveCategories tenantID))

def getByID (tenantID categoryID : UUID) : Service Category := do
  let row ← errorf "categoryRepo.GetByID" (sql (.getCategoryByID tenantID categoryID))
  orNoRows .resourceNotFound row

end CategoryRepo

namespace TenantRepo

def create (db : DBTX) (companyName : String) : Service Tenant :=
  errorf "tenantRepo.Create" (db.exec (.createTenant companyName))

def getByID (db : DBTX) (tenantID : UUID) : Service Tenant := do
  let row ← errorf "tenantRepo.GetByID" (db.exec (.getTenantByID tenantID))
  orNoRows .resourceNotFound row

end TenantRepo

namespace MembershipRepo

def create (db : DBTX) (tenantID userID : UUID) (role : Role) : Service TenantMembership :=
  errorf "membershipRepo.Create" (db.exec (.createMembership tenantID userID role))

def getByUserID (db : DBTX) (userID : UUID) : Service TenantMembership := do
  let row ← errorf "membershipRepo.GetByUserID" (db.exec (.getMembershipByUserID userID))
  orNoRows .resourceNotFound row

def listByTenantID (tenantID : UUID) : Service (List TenantMembership) :=
  errorf "membershipRepo.ListByTenantID" (sql (.listMembershipsByTenantID tenantID))

def hasApprover (tenantID : UUID) : Service Bool :=
  errorf "membershipRepo.HasApprover" (sql (.hasApprover tenantID))

def countByTenantID (tenantID : UUID) : Service Int :=
  errorf "membershipRepo.CountByTenantID" (sql (.countMembersByTenantID tenantID))

end MembershipRepo

namespace UserRepo

/-- A unique violation means that the e-mail address is taken. -/
def create (db : DBTX) (email name : String) (passwordHash : PasswordHash) : Service User := do
  let r ← Svc.attempt (db.exec (.createUser email name passwordHash))
  match r with
  | .ok row => pure row
  | .error e =>
      if e.asSql = some .uniqueViolation then fail .emailAlreadyExists
      else throw (.wrap "userRepo.Create" e)

def getByID (db : DBTX) (userID : UUID) : Service User := do
  let row ← errorf "userRepo.GetByID" (db.exec (.getUserByID userID))
  orNoRows .resourceNotFound row

def getByEmail (db : DBTX) (email : String) : Service User := do
  let row ← errorf "userRepo.GetByEmail" (db.exec (.getUserByEmail email))
  orNoRows .resourceNotFound row

def updatePassword (db : DBTX) (userID : UUID) (passwordHash : PasswordHash) : Service Unit :=
  errorf "userRepo.UpdatePassword" (db.exec (.updateUserPassword userID passwordHash))

end UserRepo

/-! ## Tokens -/

namespace RefreshTokenRepo

def create (db : DBTX) (jti userID : UUID) (tokenHash : Digest) (expiresAt : Timestamp) :
    Service RefreshToken :=
  errorf "refreshTokenRepo.Create" (db.exec (.createRefreshToken jti userID tokenHash expiresAt))

def getByJTI (db : DBTX) (jti : UUID) : Service RefreshToken := do
  let row ← errorf "refreshTokenRepo.GetByJTI" (db.exec (.getRefreshTokenByJTI jti))
  orNoRows .resourceNotFound row

def revoke (db : DBTX) (jti : UUID) : Service Unit :=
  errorf "refreshTokenRepo.Revoke" (db.exec (.revokeRefreshToken jti))

def revokeAllByUserID (db : DBTX) (userID : UUID) : Service Unit :=
  errorf "refreshTokenRepo.RevokeAllByUserID" (db.exec (.revokeAllByUserID userID))

end RefreshTokenRepo

namespace PasswordResetRepo

def create (db : DBTX) (userID : UUID) (tokenHash : Digest) (expiresAt : Timestamp) :
    Service PasswordResetToken :=
  errorf "passwordResetRepo.Create" (db.exec (.createPasswordResetToken userID tokenHash expiresAt))

def getByTokenHash (db : DBTX) (tokenHash : Digest) : Service PasswordResetToken := do
  let row ← errorf "passwordResetRepo.GetByTokenHash"
    (db.exec (.getPasswordResetTokenByHash tokenHash))
  orNoRows .resourceNotFound row

def markUsed (db : DBTX) (id : UUID) : Service Unit :=
  errorf "passwordResetRepo.MarkUsed" (db.exec (.markPasswordResetTokenUsed id))

end PasswordResetRepo

end ExpenseSaas
