import ExpenseSaas.Service.Report

/-!
# Dashboard, tenant and categories

`dashboard_service.go`, `tenant_service.go` and `category_service.go`: reading
only, all of it scoped by the tenant of the actor.
-/

namespace ExpenseSaas

open ReadCommitted Sql

/-- `TenantInfoDTO`. -/
structure TenantInfoDTO where
  id : UUID
  name : String
  createdAt : Timestamp
  deriving DecidableEq, Repr

/-- `RecentReport`. -/
structure RecentReport where
  id : UUID
  title : String
  periodStart : String
  periodEnd : String
  totalAmount : Int
  status : ReportStatus
  updatedAt : Timestamp
  deriving DecidableEq, Repr

/-- `DashboardData`: which fields are set depends on the role. -/
structure DashboardData where
  myDraftCount : Option Int
  mySubmittedCount : Option Int
  myRejectedCount : Option Int
  recentReports : Option (List RecentReport)
  pendingApprovalCount : Option Int
  pendingPaymentCount : Option Int
  monthlySummary : Option (List MonthlySummary)
  tenantDraftCount : Option Int
  tenantSubmittedCount : Option Int
  tenantApprovedCount : Option Int
  tenantRejectedCount : Option Int
  tenantPaidCount : Option Int
  tenantMemberCount : Option Int
  deriving DecidableEq, Repr, Inhabited

namespace DashboardService

def toRecentReport (r : ExpenseReport) : RecentReport :=
  ⟨r.reportID, r.title, r.periodStart.format, r.periodEnd.format, r.totalAmount, r.status,
    r.updatedAt⟩

/-- `fillMemberFields`. -/
def fillMemberFields (tenantID userID : UUID) (data : DashboardData) : Service DashboardData := do
  let counts ← errorf "dashboardService.fillMemberFields: CountByStatus"
    (ReportRepo.countByStatus tenantID (some userID))
  let recent ← errorf "dashboardService.fillMemberFields: ListRecentReports"
    (ReportRepo.listRecentReports tenantID userID 5)
  pure { data with
    myDraftCount := some (counts .draft)
    mySubmittedCount := some (counts .submitted)
    myRejectedCount := some (counts .rejected)
    recentReports := some (recent.map toRecentReport) }

/-- `fillApproverFields`: what is submitted, less one's own. -/
def fillApproverFields (tenantID actorUserID : UUID) (data : DashboardData) :
    Service DashboardData := do
  let allCounts ← errorf "dashboardService.fillApproverFields: CountByStatus(all)"
    (ReportRepo.countByStatus tenantID none)
  let myCounts ← errorf "dashboardService.fillApproverFields: CountByStatus(my)"
    (ReportRepo.countByStatus tenantID (some actorUserID))
  pure { data with
    pendingApprovalCount := some (allCounts .submitted - myCounts .submitted) }

/-- `fillAccountingFields`. -/
def fillAccountingFields (tenantID : UUID) (data : DashboardData) : Service DashboardData := do
  let allCounts ← errorf "dashboardService.fillAccountingFields: CountByStatus"
    (ReportRepo.countByStatus tenantID none)
  pure { data with pendingPaymentCount := some (allCounts .approved) }

/-- `fillAdminFields`. -/
def fillAdminFields (tenantID : UUID) (data : DashboardData) : Service DashboardData := do
  let allCounts ← errorf "dashboardService.fillAdminFields: CountByStatus"
    (ReportRepo.countByStatus tenantID none)
  let memberCount ← errorf "dashboardService.fillAdminFields: CountByTenantID"
    (MembershipRepo.countByTenantID tenantID)
  pure { data with
    tenantDraftCount := some (allCounts .draft)
    tenantSubmittedCount := some (allCounts .submitted)
    tenantApprovedCount := some (allCounts .approved)
    tenantRejectedCount := some (allCounts .rejected)
    tenantPaidCount := some (allCounts .paid)
    tenantMemberCount := some memberCount }

/-- `fillMonthlySummary`: the last three months of the tenant. -/
def fillMonthlySummary (tenantID : UUID) (data : DashboardData) : Service DashboardData := do
  let summary ← errorf "dashboardService.fillMonthlySummary: MonthlySummary"
    (ReportRepo.monthlySummary tenantID none 3)
  pure { data with monthlySummary := some summary }

/-- `GetDashboard`. -/
def getDashboard (actor : Actor) : Service DashboardData :=
  match actor.role with
  | .member => fillMemberFields actor.tenantID actor.userID default
  | .approver => do
      let data ← fillMemberFields actor.tenantID actor.userID default
      let data ← fillApproverFields actor.tenantID actor.userID data
      fillMonthlySummary actor.tenantID data
  | .accounting => do
      let data ← fillMemberFields actor.tenantID actor.userID default
      let data ← fillAccountingFields actor.tenantID data
      fillMonthlySummary actor.tenantID data
  | .admin => do
      let data ← fillAdminFields actor.tenantID default
      fillMonthlySummary actor.tenantID data

end DashboardService

namespace TenantService

/-- `GetTenant`. -/
def getTenant (actor : Actor) : Service TenantInfoDTO := do
  let r ← Svc.attempt (TenantRepo.getByID .tx actor.tenantID)
  match r with
  | .ok tenant => pure ⟨tenant.tenantID, tenant.companyName, tenant.createdAt⟩
  | .error e =>
      if e.is .resourceNotFound then fail .resourceNotFound
      else throw (.wrap "tenantService.GetTenant" e)

/-- One member of the list; a member without a user row fails the operation. -/
def memberSummary (m : TenantMembership) : Service UserSummary := do
  let user ← errorf ("tenantService.ListTenantMembers: get user " ++ Nat.repr m.userID)
    (UserRepo.getByID .tx m.userID)
  pure user.toSummary

/-- `ListTenantMembers`. -/
def listTenantMembers (actor : Actor) : Service (List UserSummary) := do
  let memberships ← errorf "tenantService.ListTenantMembers"
    (MembershipRepo.listByTenantID actor.tenantID)
  Svc.each memberSummary memberships

end TenantService

namespace CategoryService

/-- `ListCategories`. -/
def listCategories (actor : Actor) : Service (List CategoryDTO) := do
  let categories ← CategoryRepo.listActive actor.tenantID
  pure (categories.map Category.toDTO)

end CategoryService

end ExpenseSaas
