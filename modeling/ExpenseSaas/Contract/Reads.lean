import ExpenseSaas.ReadCommitted.History
import ExpenseSaas.Server

/-!
# What a request may read

Every statement a request reads with carries the tenant of its actor, apart from
the lookup of a user's name by identifier. `Stmt.readsIn` lists these statements
and `Harmless` the commands that change nothing; the services that only read are
shown to issue nothing else.
-/

namespace ExpenseSaas

open ReadCommitted

namespace Sql

/-- The statement reads, within tenant `t`. -/
def Stmt.readsIn (t : UUID) : Stmt → Bool
  | .setCurrentTenant t' => t' = t
  | .getReportByID t' _ => t' = t
  | .listReportsByUser p => p.tenantID = t
  | .countReportsByUser p => p.tenantID = t
  | .listAllReports p => p.tenantID = t
  | .countAllReports p => p.tenantID = t
  | .listPendingReports p => p.tenantID = t
  | .countPendingReports p => p.tenantID = t
  | .listPayableReports p => p.tenantID = t
  | .countPayableReports p => p.tenantID = t
  | .listProcessedReports p => p.tenantID = t
  | .countProcessedReports p => p.tenantID = t
  | .countReportsByStatus t' => t' = t
  | .countMyReportsByStatus t' _ => t' = t
  | .monthlySummaryAll t' _ => t' = t
  | .monthlySummaryByUser t' _ _ => t' = t
  | .listRecentReports t' _ _ => t' = t
  | .getExpenseItemByID t' _ _ => t' = t
  | .listExpenseItemsByReportID t' _ => t' = t
  | .getAttachmentByID t' _ _ _ => t' = t
  | .listAttachmentsByItemID t' _ _ => t' = t
  | .listActiveCategories t' => t' = t
  | .getCategoryByID t' _ => t' = t
  | .getTenantByID t' => t' = t
  | .getUserByID _ => true
  | .listMembershipsByTenantID t' => t' = t
  | .hasApprover t' => t' = t
  | .countMembersByTenantID t' => t' = t
  | _ => false

/-- The statement looks something up within tenant `t`, and never fails. -/
def Stmt.looksUp (t : UUID) : Stmt → Bool
  | .getReportByID t' _ => t' = t
  | .getExpenseItemByID t' _ _ => t' = t
  | .listExpenseItemsByReportID t' _ => t' = t
  | .getAttachmentByID t' _ _ _ => t' = t
  | .listAttachmentsByItemID t' _ _ => t' = t
  | .getCategoryByID t' _ => t' = t
  | .getTenantByID t' => t' = t
  | .getUserByID _ => true
  | .hasApprover t' => t' = t
  | _ => false

theorem readsIn_of_looksUp {t : UUID} {q : Stmt} (h : q.looksUp t = true) : q.readsIn t = true := by
  cases q <;> first
    | exact h
    | cases h

theorem reads_of_readsIn {t : UUID} {q : Stmt} (h : q.readsIn t = true) :
    server.reads q = true := by
  cases q <;> first
    | rfl
    | cases h

end Sql

open Sql

/-- The command changes nothing, and reads within tenant `t`. -/
def Harmless (t : UUID) : Command → Prop
  | .sql q => q.readsIn t = true
  | .ext _ => True
  | _ => False

/-- The service issues only harmless commands. -/
abbrev ReadsIn {α : Type} (t : UUID) (x : Service α) : Prop := Svc.Only (Harmless t) x

/-- The command looks something up within tenant `t`. -/
def LooksUp (t : UUID) : Command → Prop
  | .sql q => q.looksUp t = true
  | .ext _ => True
  | _ => False

/-- The service only looks things up. -/
abbrev Looks {α : Type} (t : UUID) (x : Service α) : Prop := Svc.Only (LooksUp t) x

section

variable {α β : Type} {t : UUID}

theorem Looks.reads {x : Service α} (h : Looks t x) : ReadsIn t x :=
  Prog.only_mono h fun c hc => by
    cases c with
    | sql q => exact readsIn_of_looksUp hc
    | ext x => trivial
    | _ => exact hc.elim

theorem looks_pure {a : α} : Looks t (pure a : Service α) := Svc.only_pure

theorem looks_sql {q : Stmt} (h : q.looksUp t = true) : Looks t (sql q) :=
  Svc.only_bind (Svc.only_call h) fun _ => Svc.only_ofExcept

theorem looks_demand {x : Except DomainError α} : Looks t (demand x) := Svc.only_ofExcept

theorem looks_fail {e : DomainError} : Looks t (fail e : Service α) := Svc.only_throw

theorem looks_errorf {context : String} {x : Service α} (h : Looks t x) : Looks t (errorf context x) :=
  Svc.only_mapError h

theorem looks_orNoRows {e : DomainError} {row : Option α} : Looks t (orNoRows e row) := by
  cases row with
  | none => exact looks_fail
  | some r => exact looks_pure

theorem readsIn_pure {a : α} : ReadsIn t (pure a : Service α) := Svc.only_pure

theorem readsIn_sql {q : Stmt} (h : q.readsIn t = true) : ReadsIn t (sql q) :=
  Svc.only_bind (Svc.only_call h) fun _ => Svc.only_ofExcept

theorem readsIn_ext {x : Ext} : ReadsIn t (ext x) := Svc.only_call trivial

theorem readsIn_demand {x : Except DomainError α} : ReadsIn t (demand x) := Svc.only_ofExcept

theorem readsIn_orFail {x : Except GoError α} : ReadsIn t (orFail x) := Svc.only_ofExcept

theorem readsIn_fail {e : DomainError} : ReadsIn t (fail e : Service α) := Svc.only_throw

theorem readsIn_errorf {context : String} {x : Service α} (h : ReadsIn t x) :
    ReadsIn t (errorf context x) := Svc.only_mapError h

end

/-! ## Repositories -/

section

variable {t : UUID}

theorem looks_getReport {k : UUID} : Looks t (ReportRepo.getByID t k) :=
  Svc.only_bind (looks_errorf (looks_sql (decide_eq_true rfl))) fun _ => looks_orNoRows

theorem looks_getItem {k i : UUID} : Looks t (ItemRepo.getByID t k i) :=
  Svc.only_bind (looks_errorf (looks_sql (decide_eq_true rfl))) fun _ => looks_orNoRows

theorem looks_getAttachment {k i a : UUID} : Looks t (AttachmentRepo.getByID t k i a) :=
  Svc.only_bind (looks_errorf (looks_sql (decide_eq_true rfl))) fun _ => looks_orNoRows

theorem looks_getCategory {c : UUID} : Looks t (CategoryRepo.getByID t c) :=
  Svc.only_bind (looks_errorf (looks_sql (decide_eq_true rfl))) fun _ => looks_orNoRows

theorem looks_getTenant : Looks t (TenantRepo.getByID .tx t) :=
  Svc.only_bind (looks_errorf (looks_sql (decide_eq_true rfl))) fun _ => looks_orNoRows

theorem looks_getUser {u : UUID} : Looks t (UserRepo.getByID .tx u) :=
  Svc.only_bind (looks_errorf (looks_sql rfl)) fun _ => looks_orNoRows

theorem looks_listItems {k : UUID} : Looks t (ItemRepo.listByReportID t k) :=
  looks_errorf (looks_sql (decide_eq_true rfl))

theorem looks_listAttachments {k i : UUID} : Looks t (AttachmentRepo.listByItemID t k i) :=
  looks_errorf (looks_sql (decide_eq_true rfl))

theorem looks_hasApprover : Looks t (MembershipRepo.hasApprover t) :=
  looks_errorf (looks_sql (decide_eq_true rfl))

theorem reads_listReports {params : ReportListParams} : ReadsIn t (ReportRepo.list t params) := by
  unfold ReportRepo.list
  refine readsIn_errorf ?_
  split
  · exact Svc.only_bind (readsIn_sql (decide_eq_true rfl)) fun _ =>
      Svc.only_bind (readsIn_sql (decide_eq_true rfl)) fun _ => readsIn_pure
  · exact Svc.only_bind (readsIn_sql (decide_eq_true rfl)) fun _ =>
      Svc.only_bind (readsIn_sql (decide_eq_true rfl)) fun _ => readsIn_pure

/-- A page and the number of all rows, as the work lists ask for them. -/
theorem reads_page {α : Type} {q q' : Stmt} {c c' : String} {f : q.Result → q'.Result → α}
    (h : q.readsIn t = true) (h' : q'.readsIn t = true) :
    ReadsIn t (errorf c (sql q) >>= fun rows => errorf c' (sql q') >>= fun n => pure (f rows n)) :=
  Svc.only_bind (readsIn_errorf (readsIn_sql h)) fun _ =>
    Svc.only_bind (readsIn_errorf (readsIn_sql h')) fun _ => readsIn_pure

theorem reads_listPending {params : WorkflowListParams} :
    ReadsIn t (ReportRepo.listPending t params) :=
  reads_page (decide_eq_true rfl) (decide_eq_true rfl)

theorem reads_listPayable {params : WorkflowListParams} :
    ReadsIn t (ReportRepo.listPayable t params) :=
  reads_page (decide_eq_true rfl) (decide_eq_true rfl)

theorem reads_listProcessed {u : UUID} {params : WorkflowListParams} :
    ReadsIn t (ReportRepo.listProcessed t u params) :=
  reads_page (decide_eq_true rfl) (decide_eq_true rfl)

theorem reads_countByStatus {u : Option UUID} : ReadsIn t (ReportRepo.countByStatus t u) := by
  cases u with
  | none =>
    exact Svc.only_bind (readsIn_errorf (readsIn_sql (decide_eq_true rfl))) fun _ => readsIn_pure
  | some u =>
    exact Svc.only_bind (readsIn_errorf (readsIn_sql (decide_eq_true rfl))) fun _ => readsIn_pure

theorem reads_monthlySummary {n : Int} : ReadsIn t (ReportRepo.monthlySummary t none n) :=
  readsIn_errorf (readsIn_sql (decide_eq_true rfl))

end

/-! ## Details and lists -/

section

variable {t : UUID} {actor : Actor}

theorem looks_nameOf {u : UUID} : Looks t (nameOf u) := by
  refine Svc.only_bind (Svc.only_attempt looks_getUser) fun r => ?_
  cases r <;> exact looks_pure

theorem looks_nameOfOption {u : Option UUID} : Looks t (nameOfOption u) := by
  cases u with
  | none => exact looks_pure
  | some u => exact looks_nameOf

theorem looks_userCache {cache : UserCache} {u : UUID} : Looks t (cache.fill u) := by
  unfold UserCache.fill
  split
  · exact looks_pure
  · refine Svc.only_bind looks_nameOf fun r => ?_
    cases r <;> exact looks_pure

theorem looks_withSubmitters {β : Type} {make : ExpenseReport → Option UserSummary → β}
    (rows : List ExpenseReport) {cache : UserCache} :
    Looks t (withSubmitters make cache rows) := by
  induction rows generalizing cache with
  | nil => exact looks_pure
  | cons r rs ih =>
    exact Svc.only_bind looks_userCache fun _ => Svc.only_bind ih fun _ => looks_pure

theorem looks_categoryCache {cache : CategoryCache} {c : UUID} : Looks t (cache.fill t c) := by
  unfold CategoryCache.fill
  split
  · exact looks_pure
  · refine Svc.only_bind (Svc.only_attempt looks_getCategory) fun r => ?_
    cases r <;> exact looks_pure

theorem looks_buildItems {k : UUID} (items : List ExpenseItem) {cache : CategoryCache} :
    Looks actor.tenantID (ReportService.buildItems actor k cache items) := by
  induction items generalizing cache with
  | nil => exact looks_pure
  | cons i is ih =>
    exact Svc.only_bind looks_categoryCache fun _ =>
      Svc.only_bind (looks_errorf looks_listAttachments) fun _ =>
        Svc.only_bind ih fun _ => looks_pure

theorem looks_buildDetail {r : ExpenseReport} :
    Looks actor.tenantID (ReportService.buildDetail actor r) :=
  Svc.only_bind (looks_errorf looks_getUser) fun _ =>
    Svc.only_bind looks_nameOfOption fun _ => Svc.only_bind looks_nameOfOption fun _ =>
      Svc.only_bind looks_nameOfOption fun _ => Svc.only_bind looks_nameOfOption fun _ =>
        Svc.only_bind (looks_errorf looks_listItems) fun _ =>
          Svc.only_bind (looks_buildItems _) fun _ => looks_pure

theorem looks_buildWorkflowDetail {r : ExpenseReport} :
    Looks t (WorkflowService.buildWorkflowDetail r) :=
  Svc.only_bind (looks_errorf looks_getUser) fun _ =>
    Svc.only_bind looks_nameOfOption fun _ => Svc.only_bind looks_nameOfOption fun _ =>
      Svc.only_bind looks_nameOfOption fun _ => Svc.only_bind looks_nameOfOption fun _ =>
        looks_pure

theorem looks_buildItemDTO {i : ExpenseItem} :
    Looks actor.tenantID (ItemService.buildItemDTO actor i) :=
  Svc.only_bind (looks_errorf looks_getCategory) fun _ =>
    Svc.only_bind (looks_errorf looks_listAttachments) fun _ => looks_pure

theorem looks_editableReport {k : UUID} : Looks actor.tenantID (editableReport actor k) :=
  Svc.only_bind looks_getReport fun _ => Svc.only_bind looks_demand fun _ =>
    Svc.only_bind looks_demand fun _ => looks_pure

end

/-! ## Services that only read -/

section

variable {actor : Actor}

theorem reads_getReportService {k : UUID} :
    ReadsIn actor.tenantID (ReportService.getReport actor k) :=
  Svc.only_bind looks_getReport.reads fun _ => Svc.only_bind readsIn_demand fun _ => looks_buildDetail.reads

theorem reads_listMyReports {params : ReportListParams} :
    ReadsIn actor.tenantID (ReportService.listMyReports actor params) :=
  Svc.only_bind (readsIn_errorf reads_listReports) fun _ => readsIn_pure

theorem reads_listAllReports {params : ReportListParams} :
    ReadsIn actor.tenantID (ReportService.listAllReports actor params) :=
  Svc.only_bind (readsIn_errorf reads_listReports) fun _ =>
    Svc.only_bind (looks_withSubmitters _).reads fun _ => readsIn_pure

theorem reads_listPendingReports {params : WorkflowListParams} :
    ReadsIn actor.tenantID (WorkflowService.listPendingReports actor params) :=
  Svc.only_bind (readsIn_errorf reads_listPending) fun _ =>
    Svc.only_bind (looks_withSubmitters _).reads fun _ => readsIn_pure

theorem reads_listProcessedReports {params : WorkflowListParams} :
    ReadsIn actor.tenantID (WorkflowService.listProcessedReports actor params) :=
  Svc.only_bind (readsIn_errorf reads_listProcessed) fun _ =>
    Svc.only_bind (looks_withSubmitters _).reads fun _ => readsIn_pure

theorem reads_listPayableReports {params : WorkflowListParams} :
    ReadsIn actor.tenantID (WorkflowService.listPayableReports actor params) :=
  Svc.only_bind (readsIn_errorf reads_listPayable) fun _ =>
    Svc.only_bind (looks_withSubmitters _).reads fun _ => readsIn_pure

theorem reads_listAttachmentsService {k i : UUID} :
    ReadsIn actor.tenantID (AttachmentService.listAttachments actor k i) :=
  Svc.only_bind looks_getReport.reads fun _ => Svc.only_bind readsIn_demand fun _ =>
    Svc.only_bind looks_getItem.reads fun _ =>
      Svc.only_bind (readsIn_errorf looks_listAttachments.reads) fun _ => readsIn_pure

theorem reads_generatePresignedURL {k i a : UUID} {disposition : String} :
    ReadsIn actor.tenantID (AttachmentService.generatePresignedURL actor k i a disposition) :=
  Svc.only_bind looks_getReport.reads fun _ => Svc.only_bind readsIn_demand fun _ =>
    Svc.only_bind looks_getAttachment.reads fun _ => Svc.only_bind readsIn_ext fun _ =>
      Svc.only_bind (readsIn_errorf readsIn_orFail) fun _ => readsIn_pure

theorem reads_fillMemberFields {u : UUID} {data : DashboardData} :
    ReadsIn actor.tenantID (DashboardService.fillMemberFields actor.tenantID u data) :=
  Svc.only_bind (readsIn_errorf reads_countByStatus) fun _ =>
    Svc.only_bind (readsIn_errorf (readsIn_errorf (readsIn_sql (decide_eq_true rfl)))) fun _ =>
      readsIn_pure

theorem reads_fillMonthlySummary {data : DashboardData} :
    ReadsIn actor.tenantID (DashboardService.fillMonthlySummary actor.tenantID data) :=
  Svc.only_bind (readsIn_errorf reads_monthlySummary) fun _ => readsIn_pure

theorem reads_getDashboard : ReadsIn actor.tenantID (DashboardService.getDashboard actor) := by
  unfold DashboardService.getDashboard
  split
  · exact reads_fillMemberFields
  · exact Svc.only_bind reads_fillMemberFields fun _ =>
      Svc.only_bind (Svc.only_bind (readsIn_errorf reads_countByStatus) fun _ =>
        Svc.only_bind (readsIn_errorf reads_countByStatus) fun _ => readsIn_pure) fun _ =>
          reads_fillMonthlySummary
  · exact Svc.only_bind reads_fillMemberFields fun _ =>
      Svc.only_bind (Svc.only_bind (readsIn_errorf reads_countByStatus) fun _ => readsIn_pure)
        fun _ => reads_fillMonthlySummary
  · exact Svc.only_bind (Svc.only_bind (readsIn_errorf reads_countByStatus) fun _ =>
      Svc.only_bind (readsIn_errorf (readsIn_errorf (readsIn_sql (decide_eq_true rfl))))
        fun _ => readsIn_pure) fun _ => reads_fillMonthlySummary

theorem reads_getMe : ReadsIn actor.tenantID (AuthService.getMe actor) :=
  Svc.only_bind (readsIn_errorf looks_getUser.reads) fun _ =>
    Svc.only_bind (readsIn_errorf looks_getTenant.reads) fun _ => readsIn_pure

theorem reads_getTenantService : ReadsIn actor.tenantID (TenantService.getTenant actor) := by
  refine Svc.only_bind (Svc.only_attempt looks_getTenant.reads) fun r => ?_
  cases r with
  | ok tenant => exact readsIn_pure
  | error e =>
    dsimp only
    split
    · exact readsIn_fail
    · exact Svc.only_throw

theorem reads_listTenantMembers : ReadsIn actor.tenantID (TenantService.listTenantMembers actor) :=
  Svc.only_bind (readsIn_errorf (readsIn_errorf (readsIn_sql (decide_eq_true rfl)))) fun _ =>
    Svc.only_each (fun _ => Svc.only_bind (readsIn_errorf looks_getUser.reads) fun _ => readsIn_pure) _

theorem reads_listCategories : ReadsIn actor.tenantID (CategoryService.listCategories actor) :=
  Svc.only_bind (readsIn_errorf (readsIn_sql (decide_eq_true rfl))) fun _ => readsIn_pure

end

end ExpenseSaas
