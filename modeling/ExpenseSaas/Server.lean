import ExpenseSaas.Domain.Errors
import ExpenseSaas.Postgres.Writes
import ExpenseSaas.ReadCommitted.Runs
import ExpenseSaas.Service.Auth
import ExpenseSaas.Service.Dashboard
import ExpenseSaas.Service.Item

/-!
# The server

The calls the router of `cmd/server/main.go` passes on, each with the program
that runs for it. A call of a tenant runs in `TenantContext`: one transaction,
committed when the response is a success and rolled back otherwise. The role
lists are those of the routes.

`server` is the whole system as the sessions run it.
-/

namespace ExpenseSaas

open ReadCommitted Sql

/-- What a client may call once authenticated, by the handler that serves it. -/
inductive Endpoint where
  | getMe
  | getDashboard
  | listCategories
  | listMyReports (params : ReportListParams)
  | createReport (params : CreateReportParams)
  | getReport (reportID : UUID)
  | updateReport (reportID : UUID) (params : UpdateReportParams)
  | deleteReport (reportID : UUID)
  | submitReport (reportID : UUID) (updatedAt : Timestamp)
  | createItem (reportID : UUID) (params : CreateItemParams)
  | updateItem (reportID itemID : UUID) (params : UpdateItemParams)
  | deleteItem (reportID itemID : UUID)
  | uploadAttachment (reportID itemID : UUID) (upload : FileUpload)
  | listAttachments (reportID itemID : UUID)
  | getAttachmentDownload (reportID itemID attachmentID : UUID)
  | getAttachmentPreview (reportID itemID attachmentID : UUID)
  | deleteAttachment (reportID itemID attachmentID : UUID)
  | listPendingReports (params : WorkflowListParams)
  | listProcessedReports (params : WorkflowListParams)
  | approveReport (reportID : UUID) (comment : Option String) (updatedAt : Timestamp)
  | rejectReport (reportID : UUID) (reason : String) (updatedAt : Timestamp)
      (reason_le : reason.toList.length ≤ 1000)
  | listPayableReports (params : WorkflowListParams)
  | markReportAsPaid (reportID : UUID) (updatedAt : Timestamp)
  | listAllReports (params : ReportListParams)
  | listTenantMembers
  | getTenant

/-- A call, as it reaches the service layer. -/
inductive Call where
  | tenant (actor : Actor) (e : Endpoint)
  | signup (params : SignupParams)
  | login (email password : String)
  | refreshToken (token : RefreshTokenText)
  | logout (token : RefreshTokenText)
  | requestPasswordReset (email : String)
  | executePasswordReset (token newPassword : String)

/-- The data of a successful response. -/
inductive Payload where
  | nothing
  | detail (d : ExpenseReportDetail)
  | summaries (l : List ExpenseReportSummary) (p : Pagination)
  | item (i : ExpenseItemDTO)
  | attachment (a : AttachmentDTO)
  | attachments (l : List AttachmentDTO)
  | access (a : AttachmentAccess)
  | pending (l : List PendingReport) (p : Pagination)
  | processed (l : List ProcessedReport) (p : Pagination)
  | payable (l : List PayableReport) (p : Pagination)
  | members (l : List UserSummary)
  | tenantInfo (t : TenantInfoDTO)
  | categories (l : List CategoryDTO)
  | dashboard (d : DashboardData)
  | profile (u : UserProfile)
  | auth (r : AuthResult)
  deriving DecidableEq, Repr

/-- What a call returns. -/
abbrev Outcome : Type := Except GoError Payload

/-- The roles a route lets through. -/
def Endpoint.roles : Endpoint → List Role
  | .listPendingReports _ => [.approver]
  | .listProcessedReports _ => [.approver]
  | .approveReport .. => [.approver]
  | .rejectReport .. => [.approver]
  | .listPayableReports _ => [.accounting]
  | .markReportAsPaid .. => [.accounting]
  | .listAllReports _ => [.admin, .accounting]
  | .listTenantMembers => [.admin, .accounting]
  | .getTenant => [.admin]
  | _ => [.member, .approver, .admin, .accounting]

/-- How the handler answers errors. -/
def Endpoint.responder : Endpoint → Responder
  | .uploadAttachment .. => attachmentResponder
  | _ => domainResponder

/-- The service method behind an endpoint. -/
def Endpoint.service (actor : Actor) : Endpoint → Service Payload
  | .getMe => .profile <$> AuthService.getMe actor
  | .getDashboard => .dashboard <$> DashboardService.getDashboard actor
  | .listCategories => .categories <$> CategoryService.listCategories actor
  | .listMyReports params =>
      (fun r => .summaries r.1 r.2) <$> ReportService.listMyReports actor params
  | .createReport params => .detail <$> ReportService.createReport actor params
  | .getReport reportID => .detail <$> ReportService.getReport actor reportID
  | .updateReport reportID params => .detail <$> ReportService.updateReport actor reportID params
  | .deleteReport reportID => (fun _ => .nothing) <$> ReportService.deleteReport actor reportID
  | .submitReport reportID updatedAt =>
      .detail <$> ReportService.submitReport actor reportID updatedAt
  | .createItem reportID params => .item <$> ItemService.createItem actor reportID params
  | .updateItem reportID itemID params =>
      .item <$> ItemService.updateItem actor reportID itemID params
  | .deleteItem reportID itemID =>
      (fun _ => .nothing) <$> ItemService.deleteItem actor reportID itemID
  | .uploadAttachment reportID itemID upload =>
      .attachment <$> AttachmentService.uploadAttachment actor reportID itemID upload
  | .listAttachments reportID itemID =>
      .attachments <$> AttachmentService.listAttachments actor reportID itemID
  | .getAttachmentDownload reportID itemID attachmentID =>
      .access <$> AttachmentService.getAttachmentDownload actor reportID itemID attachmentID
  | .getAttachmentPreview reportID itemID attachmentID =>
      .access <$> AttachmentService.getAttachmentPreview actor reportID itemID attachmentID
  | .deleteAttachment reportID itemID attachmentID =>
      (fun _ => .nothing) <$> AttachmentService.deleteAttachment actor reportID itemID attachmentID
  | .listPendingReports params =>
      (fun r => .pending r.1 r.2) <$> WorkflowService.listPendingReports actor params
  | .listProcessedReports params =>
      (fun r => .processed r.1 r.2) <$> WorkflowService.listProcessedReports actor params
  | .approveReport reportID comment updatedAt =>
      .detail <$> WorkflowService.approveReport actor reportID comment updatedAt
  | .rejectReport reportID reason updatedAt _ =>
      .detail <$> WorkflowService.rejectReport actor reportID reason updatedAt
  | .listPayableReports params =>
      (fun r => .payable r.1 r.2) <$> WorkflowService.listPayableReports actor params
  | .markReportAsPaid reportID updatedAt =>
      .detail <$> WorkflowService.markReportAsPaid actor reportID updatedAt
  | .listAllReports params =>
      (fun r => .summaries r.1 r.2) <$> ReportService.listAllReports actor params
  | .listTenantMembers => .members <$> TenantService.listTenantMembers actor
  | .getTenant => .tenantInfo <$> TenantService.getTenant actor

/-- `RequireRole`. -/
def requireRole (actor : Actor) (roles : List Role) (x : Service Payload) : Service Payload :=
  if actor.role ∈ roles then x else fail .forbidden

/-- The status of the response. -/
def statusOf (responder : Responder) : Outcome → Nat
  | .ok _ => 200
  | .error e => (responder.respond e).1

/-- Issue a command and go on with its answer, whatever it is. -/
def issue (c : Command) : Program (Command.Resp c) := Prog.call c

/--
`TenantContext`: the transaction of a request. Whatever was not committed is
rolled back on the way out; a `COMMIT` that fails is only logged, since the
response is already written.
-/
def tenantContext (tenantID : UUID) (responder : Responder) (handler : Service Payload) :
    Program Outcome := do
  let b : Except SqlError Unit ← issue .begin
  match b with
  | .error e => do
      let _ : Except SqlError Unit ← issue .rollback
      pure (.error (.sql e))
  | .ok _ => do
      let s : Except SqlError Unit ← issue (.sql (.setCurrentTenant tenantID))
      match s with
      | .error e => do
          let _ : Except SqlError Unit ← issue .rollback
          pure (.error (.sql e))
      | .ok _ => do
          let r ← handler.run
          if statusOf responder r < 400 then do
            let c : Except SqlError Bool ← issue .commit
            match c with
            | .ok _ => pure r
            | .error _ => do
                let _ : Except SqlError Unit ← issue .rollback
                pure r
          else do
            let _ : Except SqlError Unit ← issue .rollback
            pure r

/-- The program that runs for a call. -/
def Call.program : Call → Program Outcome
  | .tenant actor e => tenantContext actor.tenantID e.responder
      (requireRole actor e.roles (e.service actor))
  | .signup params => (Payload.auth <$> AuthService.signup params : Service Payload).run
  | .login email password => (Payload.auth <$> AuthService.login email password : Service Payload).run
  | .refreshToken token => (Payload.auth <$> AuthService.refreshToken token : Service Payload).run
  | .logout token => ((fun _ => Payload.nothing) <$> AuthService.logout token : Service Payload).run
  | .requestPasswordReset email =>
      ((fun _ => Payload.nothing) <$> AuthService.requestPasswordReset email : Service Payload).run
  | .executePasswordReset token newPassword =>
      ((fun _ => Payload.nothing) <$> AuthService.executePasswordReset token newPassword
        : Service Payload).run

/-- **The system**: the database, its statements and the programs of all calls. -/
abbrev server : Engine where
  D := Database
  W := Version
  K := RowId
  S := Stmt
  RS := Stmt.Result
  X := Ext
  RX := Ext.Result
  O := Oracle
  ε := SqlError
  L := Call
  A := Outcome
  put := Database.put
  get := Database.get
  lock := Version.id
  taken := Database.taken
  clash := Version.clash
  sem := Stmt.sem
  answer := Ext.answer
  inFailed := .inFailedSqlTransaction
  uniqueViolation := .uniqueViolation
  deadlock := .deadlockDetected
  code := Call.program
  get_put := Database.get_put
  clash_of_lock v w h := by simp [Version.clash, h]
  taken_of_get d v h := by simp [Database.taken, h]
  apply_lock _ _ _ _ hq _ _ _ _ _ h := apply_id hq h

end ExpenseSaas
