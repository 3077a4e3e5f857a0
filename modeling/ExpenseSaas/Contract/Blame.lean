import ExpenseSaas.Contract.Calls

/-!
# Errors that are nobody's fault

`respondDomainError` compares errors with `==`, so a sentinel that was wrapped on
its way up is answered with 500, as a failure of the database is. The services
wrap the error of every lookup that cannot fail: the owner of a report that was
found, the category of an item that was just written, the report that was just
created.

`faultContract` says what they rely on. A service that is told the truth ends in
an error with a status of its own, unless something outside has failed
(`call_blameless`).
-/

namespace ExpenseSaas

open ReadCommitted Sql

/-! ## Vocabulary -/

/-- The answer tells of a failure outside the program. -/
inductive Failing : Event Command Command.Resp → Prop where
  | begin (e : SqlError) : Failing ⟨.begin, .error e⟩
  | sql (q : Stmt) (e : SqlError) : Failing ⟨.sql q, .error e⟩
  | upload (key : String) (content : List UInt8) (contentType : MimeType) (e : GoError) :
      Failing ⟨.ext (.upload key content contentType), .error e⟩
  | presign (key fileName : String) (mimeType : MimeType) (disposition : String) (expiry : Nat)
      (e : GoError) : Failing ⟨.ext (.presignGetObject key fileName mimeType disposition expiry), .error e⟩

/-- Something has failed. -/
def Failed (tr : Trace) : Prop := ∃ ev ∈ tr, Failing ev

/-- The error is the request's own, or something has failed. -/
def Blameless (responder : Responder) (tr : Trace) (err : GoError) : Prop :=
  (responder.respond err).1 < 500 ∨ Failed tr

/-- The users an answer names. -/
def Sql.Stmt.people : (q : Stmt) → q.Result → List UUID
  | .getReportByID _ _, r => (r.map ExpenseReport.userID).toList
  | .createReport _, r => [r.userID]
  | .updateReport _, r => (r.map ExpenseReport.userID).toList
  | .updateReportStatus _, r => (r.map ExpenseReport.userID).toList
  | .listMembershipsByTenantID _, l => l.map TenantMembership.userID
  | _, _ => []

/-- The user was named in an answer. -/
def Named (tr : Trace) (u : UUID) : Prop :=
  ∃ (q : Stmt) (r : q.Result), (⟨.sql q, .ok r⟩ : Event Command Command.Resp) ∈ tr ∧ u ∈ q.people r

/-- The category was found. -/
def CategoryFound (tr : Trace) (t c : UUID) : Prop :=
  ∃ x, (⟨.sql (.getCategoryByID t c), .ok (some x)⟩ : Event Command Command.Resp) ∈ tr

/-- What a request relies on: what it was told of is found when it is looked up. -/
def Expected (actor : Actor) (tr : Trace) : (c : Command) → Command.Resp c → Prop
  | .sql (.getUserByID u), r => Named tr u ∨ u = actor.userID → r ≠ .ok none
  | .sql (.getTenantByID t), r => t = actor.tenantID → r ≠ .ok none
  | .sql (.getCategoryByID t c), r => CategoryFound tr t c → r ≠ .ok none
  | .sql (.getReportByID t k), r => t = actor.tenantID → Created actor tr k → r ≠ .ok none
  | _, _ => True

/-- The contract: nothing is promised, and nothing relied on once something has failed. -/
def faultContract (actor : Actor) : Contract Command Command.Resp where
  asks _ _ := True
  gets tr c r := server.Possible c r ∧ (¬ Failed tr → Expected actor tr c r)

section

variable {tr tr' : Trace} {actor : Actor} {u t c : UUID} {E : Trace → GoError → Prop}

theorem Failed.mono (h : Failed tr) (hp : tr <+: tr') : Failed tr' := by
  obtain ⟨ev, hev, hf⟩ := h
  exact ⟨ev, hp.subset hev, hf⟩

theorem failed_append {ev : Event Command Command.Resp} (h : Failing ev) : Failed (tr ++ [ev]) :=
  ⟨ev, List.mem_append_right _ (List.mem_singleton_self _), h⟩

theorem Named.mono (h : Named tr u) (hp : tr <+: tr') : Named tr' u := by
  obtain ⟨q, r, hev, hu⟩ := h
  exact ⟨q, r, hp.subset hev, hu⟩

theorem named_append {q : Stmt} {r : q.Result} (h : u ∈ q.people r) : Named (tr ++ [⟨.sql q, .ok r⟩]) u :=
  ⟨q, r, List.mem_append_right _ (List.mem_singleton_self _), h⟩

theorem CategoryFound.mono (h : CategoryFound tr t c) (hp : tr <+: tr') : CategoryFound tr' t c := by
  obtain ⟨x, hev⟩ := h
  exact ⟨x, hp.subset hev⟩

/-- Any error is allowed once something has failed. -/
def Tolerant (E : Trace → GoError → Prop) : Prop := ∀ tr err, Failed tr → E tr err

theorem tolerant_blameless {responder : Responder} : Tolerant (Blameless responder) :=
  fun _ _ h => Or.inr h

theorem Tolerant.wrap (h : Tolerant E) {context : String} :
    Tolerant fun tr err => E tr (.wrap context err) := fun tr _ hf => h tr _ hf

/-! ## Results and errors -/

variable {α β : Type} {Q Q' : Trace → α → Prop}

/-- The service ends in `Q`, or returns an error that `E` allows. -/
def Sure (actor : Actor) (E : Trace → GoError → Prop) (tr : Trace) (x : Service α)
    (Q : Trace → α → Prop) : Prop :=
  Svc.ends (faultContract actor) tr x fun tr' r =>
    (∀ a, r = .ok a → Q tr' a) ∧ ∀ err, r = .error err → E tr' err

theorem sure_mono {x : Service α} (h : Sure actor E tr x Q) (hQ : ∀ tr a, Q tr a → Q' tr a) :
    Sure actor E tr x Q' :=
  Svc.ends_mono h fun tr _ hr => ⟨fun a ha => hQ tr a (hr.1 a ha), hr.2⟩

theorem sure_pure {a : α} (h : Q tr a) : Sure actor E tr (pure a) Q := by
  refine ⟨fun b hb => ?_, fun err herr => ?_⟩
  · cases hb
    exact h
  · cases herr

theorem sure_bind {x : Service β} {f : β → Service α}
    (h : Sure actor E tr x fun tr' b => Sure actor E tr' (f b) Q) : Sure actor E tr (x >>= f) Q := by
  refine Svc.ends_bind.mpr (Svc.ends_mono h fun tr' r hr => ?_)
  cases r with
  | ok b => exact hr.1 b rfl
  | error err =>
    refine ⟨fun a ha => ?_, fun err' herr => ?_⟩
    · cases ha
    · cases herr
      exact hr.2 err rfl

theorem sure_map {x : Service β} {f : β → α} (h : Sure actor E tr x fun tr' b => Q tr' (f b)) :
    Sure actor E tr (f <$> x) Q := by
  show Sure actor E tr (x >>= fun b => pure (f b)) Q
  exact sure_bind (sure_mono h fun _ _ hb => sure_pure hb)

theorem sure_fail {e : DomainError} (h : E tr (.sentinel e)) :
    Sure actor E tr (fail e : Service α) Q := by
  refine ⟨fun a ha => ?_, fun err herr => ?_⟩
  · cases ha
  · cases herr
    exact h

theorem sure_demand {x : Except DomainError α} (h : ∀ a, x = .ok a → Q tr a)
    (hE : ∀ e, x = .error e → E tr (.sentinel e)) : Sure actor E tr (demand x) Q := by
  refine ⟨fun a ha => ?_, fun err herr => ?_⟩ <;> cases x
  · cases ha
  · cases ha
    exact h _ rfl
  · cases herr
    exact hE _ rfl
  · cases herr

theorem sure_errorf {context : String} {x : Service α}
    (h : Sure actor (fun tr err => E tr (.wrap context err)) tr x Q) :
    Sure actor E tr (errorf context x) Q := by
  refine Svc.ends_mapError.mpr (Svc.ends_mono h fun tr' r hr => ?_)
  refine ⟨fun a ha => ?_, fun err herr => ?_⟩ <;> cases r
  · cases ha
  · cases ha
    exact hr.1 _ rfl
  · cases herr
    exact hr.2 _ rfl
  · cases herr

theorem sure_attempt {x : Service β} {Q : Trace → Except GoError β → Prop}
    (h : ∀ tr' r, tr <+: tr' → Q tr' r) : Sure actor E tr (Svc.attempt x) Q := by
  refine Svc.ends_attempt.mpr (Prog.wp_of_inv (I := fun tr' => tr <+: tr') (fun _ _ _ => trivial)
    (fun _ _ _ hp => hp.trans (List.prefix_append _ _)) List.prefix_rfl fun tr' r hp => ?_)
  refine ⟨fun r' hr' => ?_, fun err herr => ?_⟩
  · cases hr'
    exact h tr' r hp
  · cases herr

/-- A statement is answered, or has failed. -/
theorem sure_sql (hE : Tolerant E) {q : Stmt} {Q : Trace → q.Result → Prop}
    (h : ∀ r, (faultContract actor).gets tr (.sql q) (.ok r) → Q (tr ++ [⟨.sql q, .ok r⟩]) r) :
    Sure actor E tr (sql q) Q := by
  refine Svc.ends_bind.mpr (Svc.ends_call.mpr ⟨trivial, fun r hr => ?_⟩)
  refine ⟨fun a ha => ?_, fun err herr => ?_⟩ <;> cases r
  · cases ha
  · cases ha
    exact h _ hr
  · cases herr
    exact hE _ _ (failed_append (.sql q _))
  · cases herr

/-- A row is looked up, and an error of its own says that there is none. -/
theorem sure_row (hE : Tolerant E) {R : Type} {context : String} {q : Stmt} {e : DomainError}
    {f : q.Result → Option R} {Q : Trace → R → Prop}
    (hnone : ∀ r, (faultContract actor).gets tr (.sql q) (.ok r) → f r = none →
      E (tr ++ [⟨.sql q, .ok r⟩]) (.sentinel e))
    (h : ∀ r x, (faultContract actor).gets tr (.sql q) (.ok r) → f r = some x →
      Q (tr ++ [⟨.sql q, .ok r⟩]) x) :
    Sure actor E tr (do let row ← errorf context (sql q); orNoRows e (f row)) Q := by
  refine sure_bind (sure_errorf (sure_sql hE.wrap fun r hr => ?_))
  cases hrow : f r with
  | none => exact sure_fail (hnone r hr hrow)
  | some x => exact sure_pure (h r x hr hrow)

/-! ### Services without errors of their own -/

/-- The service returns an error only once something has failed. -/
def Raw (actor : Actor) (x : Service α) : Prop :=
  ∀ tr, Sure actor (fun tr _ => Failed tr) tr x fun tr' _ => tr <+: tr'

theorem sure_of_raw (hE : Tolerant E) {x : Service α} (hx : Raw actor x)
    (hQ : ∀ tr' a, tr <+: tr' → Q tr' a) : Sure actor E tr x Q :=
  Svc.ends_mono (hx tr) fun tr' _ hr =>
    ⟨fun a ha => hQ tr' a (hr.1 a ha), fun err herr => hE tr' err (hr.2 err herr)⟩

theorem raw_pure {a : α} : Raw actor (pure a : Service α) := fun _ => sure_pure List.prefix_rfl

theorem raw_bind {x : Service β} {f : β → Service α} (hx : Raw actor x) (hf : ∀ b, Raw actor (f b)) :
    Raw actor (x >>= f) := fun tr =>
  sure_bind (sure_mono (hx tr) fun tr₁ b h₁ => sure_mono (hf b tr₁) fun _ _ h₂ => h₁.trans h₂)

theorem raw_errorf {context : String} {x : Service α} (hx : Raw actor x) :
    Raw actor (errorf context x) := fun tr => sure_errorf (hx tr)

theorem raw_sql {q : Stmt} : Raw actor (sql q) := fun _ =>
  sure_sql (fun _ _ hf => hf) fun _ _ => List.prefix_append _ _

theorem raw_attempt {x : Service β} : Raw actor (Svc.attempt x) := fun _ => sure_attempt fun _ _ h => h

theorem raw_ext {x : Ext} : Raw actor (ext x) := fun _ =>
  Svc.ends_call.mpr ⟨trivial, fun r _ =>
    ⟨fun _ _ => List.prefix_append _ _, fun err herr => by cases herr⟩⟩

theorem raw_each {f : β → Service α} (hf : ∀ b, Raw actor (f b)) (bs : List β) :
    Raw actor (Svc.each f bs) := by
  induction bs with
  | nil => exact raw_pure
  | cons b bs ih => exact raw_bind (hf b) fun _ => raw_bind ih fun _ => raw_pure

section

variable {k i a : UUID} {cat : UUID}

theorem raw_nameOf : Raw actor (nameOf u) := by
  refine raw_bind raw_attempt fun r => ?_
  cases r <;> exact raw_pure

theorem raw_nameOfOption {u : Option UUID} : Raw actor (nameOfOption u) := by
  cases u with
  | none => exact raw_pure
  | some u => exact raw_nameOf

theorem raw_fill {cache : UserCache} : Raw actor (cache.fill u) := by
  unfold UserCache.fill
  split
  · exact raw_pure
  · refine raw_bind raw_nameOf fun r => ?_
    cases r <;> exact raw_pure

theorem raw_withSubmitters {make : ExpenseReport → Option UserSummary → β}
    (rows : List ExpenseReport) {cache : UserCache} : Raw actor (withSubmitters make cache rows) := by
  induction rows generalizing cache with
  | nil => exact raw_pure
  | cons r rs ih => exact raw_bind raw_fill fun _ => raw_bind ih fun _ => raw_pure

theorem raw_categoryFill {cache : CategoryCache} : Raw actor (cache.fill t cat) := by
  unfold CategoryCache.fill
  split
  · exact raw_pure
  · refine raw_bind raw_attempt fun r => ?_
    cases r <;> exact raw_pure

theorem raw_listItems : Raw actor (ItemRepo.listByReportID t k) := raw_errorf raw_sql

theorem raw_listAttachments : Raw actor (AttachmentRepo.listByItemID t k i) := raw_errorf raw_sql

theorem raw_buildItems (items : List ExpenseItem) {cache : CategoryCache} :
    Raw actor (ReportService.buildItems actor k cache items) := by
  induction items generalizing cache with
  | nil => exact raw_pure
  | cons x xs ih =>
    exact raw_bind raw_categoryFill fun _ => raw_bind (raw_errorf raw_listAttachments) fun _ =>
      raw_bind ih fun _ => raw_pure

theorem raw_listReports {params : ReportListParams} : Raw actor (ReportRepo.list t params) := by
  unfold ReportRepo.list
  refine raw_errorf ?_
  split
  · exact raw_bind raw_sql fun _ => raw_bind raw_sql fun _ => raw_pure
  · exact raw_bind raw_sql fun _ => raw_bind raw_sql fun _ => raw_pure

/-- A page of a work list. -/
theorem raw_page {q q' : Stmt} {context context' : String} {f : q.Result → q'.Result → α} :
    Raw actor (errorf context (sql q) >>= fun rows => errorf context' (sql q') >>= fun n =>
      pure (f rows n)) :=
  raw_bind (raw_errorf raw_sql) fun _ => raw_bind (raw_errorf raw_sql) fun _ => raw_pure

theorem raw_countByStatus {u : Option UUID} : Raw actor (ReportRepo.countByStatus t u) := by
  cases u with
  | none => exact raw_bind (raw_errorf raw_sql) fun _ => raw_pure
  | some u => exact raw_bind (raw_errorf raw_sql) fun _ => raw_pure

theorem raw_fillMemberFields {data : DashboardData} :
    Raw actor (DashboardService.fillMemberFields t u data) :=
  raw_bind (raw_errorf raw_countByStatus) fun _ =>
    raw_bind (raw_errorf (raw_errorf raw_sql)) fun _ => raw_pure

theorem raw_fillMonthlySummary {data : DashboardData} :
    Raw actor (DashboardService.fillMonthlySummary t data) :=
  raw_bind (raw_errorf (raw_errorf raw_sql)) fun _ => raw_pure

theorem raw_getDashboard : Raw actor (DashboardService.getDashboard actor) := by
  unfold DashboardService.getDashboard
  split
  · exact raw_fillMemberFields
  · refine raw_bind raw_fillMemberFields fun _ => raw_bind ?_ fun _ => raw_fillMonthlySummary
    exact raw_bind (raw_errorf raw_countByStatus) fun _ =>
      raw_bind (raw_errorf raw_countByStatus) fun _ => raw_pure
  · refine raw_bind raw_fillMemberFields fun _ => raw_bind ?_ fun _ => raw_fillMonthlySummary
    exact raw_bind (raw_errorf raw_countByStatus) fun _ => raw_pure
  · refine raw_bind ?_ fun _ => raw_fillMonthlySummary
    exact raw_bind (raw_errorf raw_countByStatus) fun _ =>
      raw_bind (raw_errorf (raw_errorf raw_sql)) fun _ => raw_pure

theorem raw_listMyReports {params : ReportListParams} :
    Raw actor (ReportService.listMyReports actor params) :=
  raw_bind (raw_errorf raw_listReports) fun _ => raw_pure

theorem raw_listAllReports {params : ReportListParams} :
    Raw actor (ReportService.listAllReports actor params) :=
  raw_bind (raw_errorf raw_listReports) fun _ => raw_bind (raw_withSubmitters _) fun _ => raw_pure

theorem raw_listPendingReports {params : WorkflowListParams} :
    Raw actor (WorkflowService.listPendingReports actor params) :=
  raw_bind (raw_errorf raw_page) fun _ => raw_bind (raw_withSubmitters _) fun _ => raw_pure

theorem raw_listProcessedReports {params : WorkflowListParams} :
    Raw actor (WorkflowService.listProcessedReports actor params) :=
  raw_bind (raw_errorf raw_page) fun _ => raw_bind (raw_withSubmitters _) fun _ => raw_pure

theorem raw_listPayableReports {params : WorkflowListParams} :
    Raw actor (WorkflowService.listPayableReports actor params) :=
  raw_bind (raw_errorf raw_page) fun _ => raw_bind (raw_withSubmitters _) fun _ => raw_pure

theorem raw_listCategories : Raw actor (CategoryService.listCategories actor) :=
  raw_bind (raw_errorf raw_sql) fun _ => raw_pure

theorem raw_softDeleteReport : Raw actor (ReportRepo.softDelete t k) :=
  raw_bind (raw_errorf raw_sql) fun _ => raw_bind (raw_errorf raw_sql) fun _ => raw_errorf raw_sql

theorem raw_softDeleteItem : Raw actor (ItemRepo.softDelete t k i) :=
  raw_bind (raw_errorf raw_sql) fun _ => raw_bind (raw_errorf raw_sql) fun _ => raw_errorf raw_sql

end

/-! ### Services with errors of their own -/

/-- The error has a status of its own, whatever the handler. -/
def DomainError.answered (e : DomainError) : Bool := (respondDomainError (.sentinel e)).1 < 500

/-- Failures and the errors with a status of their own are allowed. -/
structure Fair (E : Trace → GoError → Prop) : Prop where
  tolerant : Tolerant E
  answered : ∀ tr e, e.answered = true → E tr (.sentinel e)

theorem fair_domain : Fair (Blameless domainResponder) :=
  ⟨tolerant_blameless, fun _ _ he => Or.inl (of_decide_eq_true he)⟩

theorem fair_attachment : Fair (Blameless attachmentResponder) := by
  refine ⟨tolerant_blameless, fun _ e he => Or.inl ?_⟩
  cases e <;> first
    | exact of_decide_eq_true he
    | exact absurd he Bool.false_ne_true

theorem fair_responder {e : Endpoint} : Fair (Blameless e.responder) := by
  cases e <;> first
    | exact fair_domain
    | exact fair_attachment

section

variable {k i a : UUID} {r : ExpenseReport} {err : DomainError}

theorem answered_of_canModify (h : Authorizer.canModifyReport actor r = .error err) :
    err.answered = true := by
  unfold Authorizer.canModifyReport at h
  split at h <;> cases h
  rfl

theorem answered_of_canView (h : Authorizer.canViewReport actor r = .error err) :
    err.answered = true := by
  unfold Authorizer.canViewReport at h
  split at h
  · cases h
  · split at h
    · cases h
    · cases h
    · split_ifs at h
      cases h
      rfl
    · cases h
      rfl

theorem answered_of_canApproveOrReject (h : Authorizer.canApproveOrReject actor r = .error err) :
    err.answered = true := by
  unfold Authorizer.canApproveOrReject at h
  split at h <;> cases h
  rfl

theorem answered_of_canMarkAsPaid (h : Authorizer.canMarkAsPaid actor r = .error err) :
    err.answered = true := by
  unfold Authorizer.canMarkAsPaid at h
  split at h <;> cases h
  rfl

theorem answered_of_canEdit (h : r.canEdit = .error err) : err.answered = true := by
  unfold ExpenseReport.canEdit at h
  split at h <;> cases h
  rfl

theorem answered_of_delete {now : Timestamp} (h : r.delete now = .error err) : err.answered = true := by
  unfold ExpenseReport.delete at h
  split at h <;> cases h
  rfl

theorem answered_of_submit {now : Timestamp} {items : List ExpenseItem} {hasApprover : Bool}
    (h : r.submit now u items hasApprover = .error err) : err.answered = true := by
  unfold ExpenseReport.submit at h
  split_ifs at h <;> cases h <;> rfl

theorem answered_of_approve {now : Timestamp} {comment : Option String}
    (h : r.approve now u comment = .error err) : err.answered = true := by
  unfold ExpenseReport.approve at h
  split_ifs at h <;> cases h <;> rfl

theorem answered_of_reject {now : Timestamp} {reason : String}
    (h : r.reject now u reason = .error err) : err.answered = true := by
  unfold ExpenseReport.reject at h
  split_ifs at h <;> cases h <;> rfl

theorem answered_of_markAsPaid {now : Timestamp} (h : r.markAsPaid now u = .error err) :
    err.answered = true := by
  unfold ExpenseReport.markAsPaid at h
  split_ifs at h <;> cases h <;> rfl

theorem answered_of_validateAmount {x : ExpenseItem} (h : x.validateAmount = .error err) :
    err.answered = true := by
  unfold ExpenseItem.validateAmount at h
  split at h <;> cases h
  rfl

/-- A row is looked up that need not be there. -/
theorem sure_lookup (hE : Fair E) {R : Type} {context : String} {q : Stmt} {e : DomainError}
    {f : q.Result → Option R} {Q : Trace → R → Prop} (he : e.answered = true)
    (h : ∀ r x, server.Possible (.sql q) (.ok r) → f r = some x → Q (tr ++ [⟨.sql q, .ok r⟩]) x) :
    Sure actor E tr (do let row ← errorf context (sql q); orNoRows e (f row)) Q :=
  sure_row hE.tolerant (fun _ _ _ => hE.answered _ _ he) fun r x hr => h r x hr.1

/-- The report is looked up; its owner is named. -/
theorem sure_getReport (hE : Fair E) {Q : Trace → ExpenseReport → Prop}
    (hQ : ∀ tr' r, tr <+: tr' → Named tr' r.userID → Q tr' r) :
    Sure actor E tr (ReportRepo.getByID t k) Q := by
  refine sure_lookup hE (q := .getReportByID t k) (e := .resourceNotFound) (f := id) rfl
    fun row r _ hrow => hQ _ r (List.prefix_append _ _) ?_
  exact named_append (by simp [Stmt.people, show row = some r from hrow])

theorem sure_getItem (hE : Fair E) {Q : Trace → ExpenseItem → Prop}
    (hQ : ∀ tr' x, tr <+: tr' → Q tr' x) : Sure actor E tr (ItemRepo.getByID t k i) Q :=
  sure_lookup hE (q := .getExpenseItemByID t k i) (e := .resourceNotFound) (f := id) rfl
    fun _ x _ _ => hQ _ x (List.prefix_append _ _)

theorem sure_getAttachment (hE : Fair E) {Q : Trace → Attachment → Prop}
    (hQ : ∀ tr' x, tr <+: tr' → Q tr' x) : Sure actor E tr (AttachmentRepo.getByID t k i a) Q :=
  sure_lookup hE (q := .getAttachmentByID t k i a) (e := .resourceNotFound) (f := id) rfl
    fun _ x _ _ => hQ _ x (List.prefix_append _ _)

/-- A category that is looked up for the first time. -/
theorem sure_findCategory (hE : Fair E) {Q : Trace → Category → Prop}
    (hQ : ∀ tr' x, tr <+: tr' → CategoryFound tr' t c → Q tr' x) :
    Sure actor E tr (CategoryRepo.getByID t c) Q := by
  refine sure_lookup hE (q := .getCategoryByID t c) (e := .resourceNotFound) (f := id) rfl
    fun row x _ hrow => hQ _ x (List.prefix_append _ _) ?_
  obtain rfl : row = some x := hrow
  exact ⟨x, List.mem_append_right _ (List.mem_singleton_self _)⟩

/-! ### Lookups that cannot fail -/

/-- A row that is known to be there is looked up. -/
theorem sure_known (hE : Tolerant E) {R : Type} {context : String} {q : Stmt} {e : DomainError}
    {f : q.Result → Option R} {Q : Trace → R → Prop}
    (hknown : ∀ r, Expected actor tr (.sql q) (.ok r) → f r ≠ none)
    (hQ : ∀ r x, server.Possible (.sql q) (.ok r) → f r = some x → Q (tr ++ [⟨.sql q, .ok r⟩]) x) :
    Sure actor E tr (do let row ← errorf context (sql q); orNoRows e (f row)) Q := by
  refine sure_row hE (fun r hr hnone => ?_) fun r x hr => hQ r x hr.1
  by_cases hf : Failed tr
  · exact hE _ _ (hf.mono (List.prefix_append _ _))
  · exact absurd hnone (hknown r (hr.2 hf))

theorem sure_getUser (hE : Tolerant E) (hu : Named tr u ∨ u = actor.userID) {Q : Trace → User → Prop}
    (hQ : ∀ tr' x, tr <+: tr' → Q tr' x) : Sure actor E tr (UserRepo.getByID .tx u) Q := by
  refine sure_known hE (q := .getUserByID u) (f := id) (fun r hr hnone => ?_)
    fun _ x _ _ => hQ _ x (List.prefix_append _ _)
  exact hr hu (congrArg Except.ok hnone)

theorem sure_getTenant (hE : Tolerant E) {Q : Trace → Tenant → Prop}
    (hQ : ∀ tr' x, tr <+: tr' → Q tr' x) :
    Sure actor E tr (TenantRepo.getByID .tx actor.tenantID) Q := by
  refine sure_known hE (q := .getTenantByID actor.tenantID) (f := id) (fun r hr hnone => ?_)
    fun _ x _ _ => hQ _ x (List.prefix_append _ _)
  exact hr rfl (congrArg Except.ok hnone)

theorem sure_getCategory (hE : Tolerant E) (hc : CategoryFound tr t c) {Q : Trace → Category → Prop}
    (hQ : ∀ tr' x, tr <+: tr' → Q tr' x) : Sure actor E tr (CategoryRepo.getByID t c) Q := by
  refine sure_known hE (q := .getCategoryByID t c) (f := id) (fun r hr hnone => ?_)
    fun _ x _ _ => hQ _ x (List.prefix_append _ _)
  exact hr hc (congrArg Except.ok hnone)

/-- The report the transaction has created. -/
theorem sure_getCreated (hE : Tolerant E) (hk : Created actor tr k) {Q : Trace → ExpenseReport → Prop}
    (hQ : ∀ tr' r, tr <+: tr' → Named tr' r.userID → Q tr' r) :
    Sure actor E tr (ReportRepo.getByID actor.tenantID k) Q := by
  refine sure_known hE (q := .getReportByID actor.tenantID k) (f := id) (fun r hr hnone => ?_)
    fun row r _ hrow => hQ _ r (List.prefix_append _ _) ?_
  · exact hr rfl hk (congrArg Except.ok hnone)
  · exact named_append (by simp [Stmt.people, show row = some r from hrow])

/-! ### The services -/

theorem sure_buildDetail (hE : Tolerant E) (hr : Named tr r.userID) :
    Sure actor E tr (ReportService.buildDetail actor r) fun _ _ => True := by
  unfold ReportService.buildDetail
  refine sure_bind (sure_errorf (sure_getUser hE.wrap (Or.inl hr) fun tr₁ submitter _ => ?_))
  refine sure_of_raw hE ?_ fun _ _ _ => trivial
  exact raw_bind raw_nameOfOption fun _ => raw_bind raw_nameOfOption fun _ =>
    raw_bind raw_nameOfOption fun _ => raw_bind raw_nameOfOption fun _ =>
      raw_bind (raw_errorf raw_listItems) fun _ => raw_bind (raw_buildItems _) fun _ => raw_pure

theorem sure_buildWorkflowDetail (hE : Tolerant E) (hr : Named tr r.userID) :
    Sure actor E tr (WorkflowService.buildWorkflowDetail r) fun _ _ => True := by
  unfold WorkflowService.buildWorkflowDetail
  refine sure_bind (sure_errorf (sure_getUser hE.wrap (Or.inl hr) fun tr₁ submitter _ => ?_))
  refine sure_of_raw hE ?_ fun _ _ _ => trivial
  exact raw_bind raw_nameOfOption fun _ => raw_bind raw_nameOfOption fun _ =>
    raw_bind raw_nameOfOption fun _ => raw_bind raw_nameOfOption fun _ => raw_pure

theorem sure_getReportService (hE : Fair E) :
    Sure actor E tr (ReportService.getReport actor k) fun _ _ => True := by
  unfold ReportService.getReport
  refine sure_bind (sure_getReport hE fun tr₁ r _ hr => ?_)
  refine sure_bind (sure_demand (fun _ _ => ?_) fun e he => hE.answered _ _ (answered_of_canView he))
  exact sure_buildDetail hE.tolerant hr

theorem sure_update (hE : Fair E) {Q : Trace → ExpenseReport → Prop}
    (hQ : ∀ tr' r', Named tr' r'.userID → Q tr' r') : Sure actor E tr (ReportRepo.update r) Q := by
  refine sure_lookup hE (q := .updateReport _) (e := .conflict) (f := id) rfl
    fun row r' _ hrow => hQ _ r' ?_
  exact named_append (by simp [Stmt.people, show row = some r' from hrow])

theorem sure_updateStatus (hE : Fair E) {Q : Trace → ExpenseReport → Prop}
    (hQ : ∀ tr' r', Named tr' r'.userID → Q tr' r') : Sure actor E tr (ReportRepo.updateStatus r) Q := by
  refine sure_lookup hE (q := .updateReportStatus _) (e := .conflict) (f := id) rfl
    fun row r' _ hrow => hQ _ r' ?_
  exact named_append (by simp [Stmt.people, show row = some r' from hrow])

theorem sure_updateReport (hE : Fair E) {params : UpdateReportParams} :
    Sure actor E tr (ReportService.updateReport actor k params) fun _ _ => True := by
  unfold ReportService.updateReport
  refine sure_bind (sure_getReport hE fun tr₁ r _ _ => ?_)
  refine sure_bind (sure_demand (fun _ _ => ?_) fun e he => hE.answered _ _ (answered_of_canModify he))
  refine sure_bind (sure_demand (fun _ _ => ?_) fun e he => hE.answered _ _ (answered_of_canEdit he))
  split
  · exact sure_fail (hE.answered _ _ rfl)
  · exact sure_bind (sure_update hE fun tr₂ r' hr' => sure_buildDetail hE.tolerant hr')

theorem sure_deleteReport (hE : Fair E) :
    Sure actor E tr (ReportService.deleteReport actor k) fun _ _ => True := by
  unfold ReportService.deleteReport
  refine sure_bind (sure_getReport hE fun tr₁ r _ _ => ?_)
  refine sure_bind (sure_demand (fun _ _ => ?_) fun e he => hE.answered _ _ (answered_of_canModify he))
  refine sure_bind (sure_of_raw hE.tolerant raw_ext fun tr₂ now _ => ?_)
  refine sure_bind (sure_demand (fun _ _ => ?_) fun e he => hE.answered _ _ (answered_of_delete he))
  exact sure_of_raw hE.tolerant raw_softDeleteReport fun _ _ _ => trivial

theorem sure_submitReport (hE : Fair E) {v : Timestamp} :
    Sure actor E tr (ReportService.submitReport actor k v) fun _ _ => True := by
  unfold ReportService.submitReport
  refine sure_bind (sure_getReport hE fun tr₁ r _ _ => ?_)
  refine sure_bind (sure_demand (fun _ _ => ?_) fun e he => hE.answered _ _ (answered_of_canModify he))
  split
  · exact sure_fail (hE.answered _ _ rfl)
  · refine sure_bind (sure_of_raw hE.tolerant (raw_errorf (raw_errorf raw_sql)) fun tr₂ found _ => ?_)
    refine sure_bind (sure_of_raw hE.tolerant (raw_errorf raw_listItems) fun tr₃ items _ => ?_)
    refine sure_bind (sure_of_raw hE.tolerant raw_ext fun tr₄ now _ => ?_)
    refine sure_bind (sure_demand (fun r' _ => ?_) fun e he => hE.answered _ _ (answered_of_submit he))
    exact sure_bind (sure_updateStatus hE fun tr₅ r'' hr => sure_buildDetail hE.tolerant hr)

theorem sure_decideOn (hE : Fair E) {v : Timestamp}
    {authorize : Actor → ExpenseReport → Except DomainError Unit}
    {transition : Timestamp → ExpenseReport → Except DomainError ExpenseReport}
    (ha : ∀ r e, authorize actor r = .error e → e.answered = true)
    (ht : ∀ now r e, transition now r = .error e → e.answered = true) :
    Sure actor E tr (WorkflowService.decideOn actor k v authorize transition) fun _ _ => True := by
  unfold WorkflowService.decideOn
  refine sure_bind (sure_getReport hE fun tr₁ r _ _ => ?_)
  refine sure_bind (sure_demand (fun _ _ => ?_) fun e he => hE.answered _ _ (ha r e he))
  split
  · exact sure_fail (hE.answered _ _ rfl)
  · refine sure_bind (sure_of_raw hE.tolerant raw_ext fun tr₂ now _ => ?_)
    refine sure_bind (sure_demand (fun r' _ => ?_) fun e he => hE.answered _ _ (ht now r e he))
    exact sure_bind (sure_updateStatus hE fun tr₃ r'' hr => sure_buildWorkflowDetail hE.tolerant hr)

/-! #### A new report -/

/-- Copying writes rows and no more than that. -/
theorem raw_copyItem {x : ExpenseItem} : Raw actor (ReportService.copyItem actor r x) :=
  raw_errorf (raw_bind (raw_errorf raw_sql) fun _ => raw_bind (raw_errorf raw_sql) fun _ => raw_pure)

theorem sure_checkReference (hE : Fair E) {reference : Option UUID} {Q : Trace → Unit → Prop}
    (hQ : ∀ tr' a, tr <+: tr' → Q tr' a) :
    Sure actor E tr (ReportService.checkReference actor reference) Q := by
  cases reference with
  | none => exact sure_pure (hQ tr () List.prefix_rfl)
  | some reference =>
    refine sure_bind (sure_getReport hE fun tr₁ r h₁ _ => ?_)
    split
    · exact sure_fail (hE.answered _ _ rfl)
    · split
      · exact sure_fail (hE.answered _ _ rfl)
      · exact sure_pure (hQ _ _ h₁)

/-- The report is read again after the items were copied, and is found. -/
theorem sure_copyItems (hE : Fair E) {reference : Option UUID} (hc : Created actor tr r.reportID)
    (hr : Named tr r.userID) {Q : Trace → ExpenseReport → Prop}
    (hQ : ∀ tr' r', Named tr' r'.userID → Q tr' r') :
    Sure actor E tr (ReportService.copyItems actor r reference) Q := by
  cases reference with
  | none => exact sure_pure (hQ tr r hr)
  | some reference =>
    refine sure_bind (sure_of_raw hE.tolerant (raw_errorf raw_listItems) fun tr₁ items h₁ => ?_)
    refine sure_bind (sure_of_raw hE.tolerant (raw_each (fun _ => raw_copyItem) items) fun tr₂ _ h₂ => ?_)
    have hc₂ : Created actor tr₂ r.reportID := by
      obtain ⟨evs, rfl⟩ := h₁.trans h₂
      exact hc.append evs
    exact sure_errorf (sure_getCreated hE.tolerant.wrap hc₂ fun tr₃ r' _ hr' => hQ tr₃ r' hr')

theorem sure_createReport (hE : Fair E) {params : CreateReportParams} :
    Sure actor E tr (ReportService.createReport actor params) fun _ _ => True := by
  unfold ReportService.createReport
  refine sure_bind (sure_checkReference hE fun tr₁ _ _ => ?_)
  refine sure_bind (sure_errorf (sure_errorf (sure_sql hE.tolerant.wrap.wrap fun r _ => ?_)))
  refine sure_bind (sure_copyItems hE ⟨_, r, by simp, rfl, rfl⟩ (named_append (by simp [Stmt.people]))
    fun tr₂ r' hr' => ?_)
  exact sure_buildDetail hE.tolerant hr'

/-! #### Items and attachments -/

theorem sure_editableReport (hE : Fair E) {Q : Trace → ExpenseReport → Prop}
    (hQ : ∀ tr' r, Q tr' r) : Sure actor E tr (editableReport actor k) Q := by
  unfold editableReport
  refine sure_bind (sure_getReport hE fun tr₁ r _ _ => ?_)
  refine sure_bind (sure_demand (fun _ _ => ?_) fun e he => hE.answered _ _ (answered_of_canModify he))
  refine sure_bind (sure_demand (fun _ _ => ?_) fun e he => hE.answered _ _ (answered_of_canEdit he))
  exact sure_pure (hQ tr₁ r)

/-- The category of the item is looked up again, and is found again. -/
theorem sure_buildItemDTO (hE : Tolerant E) {x : ExpenseItem}
    (hc : CategoryFound tr actor.tenantID x.categoryID) :
    Sure actor E tr (ItemService.buildItemDTO actor x) fun _ _ => True := by
  unfold ItemService.buildItemDTO
  refine sure_bind (sure_errorf (sure_getCategory hE.wrap hc fun tr₁ category _ => ?_))
  refine sure_of_raw hE ?_ fun _ _ _ => trivial
  exact raw_bind (raw_errorf raw_listAttachments) fun _ => raw_pure

theorem sure_createItem (hE : Fair E) {params : CreateItemParams} :
    Sure actor E tr (ItemService.createItem actor k params) fun _ _ => True := by
  unfold ItemService.createItem ItemRepo.create
  refine sure_bind (sure_editableReport hE fun tr₁ r => ?_)
  refine sure_bind (sure_demand (fun _ _ => ?_) fun e he => hE.answered _ _ (answered_of_validateAmount he))
  refine sure_bind (sure_findCategory hE fun tr₂ category _ hc => ?_)
  refine sure_bind (sure_errorf (sure_bind (sure_errorf (sure_sql hE.tolerant.wrap.wrap fun x hx => ?_))))
  refine sure_bind (sure_errorf (sure_sql hE.tolerant.wrap.wrap fun _ _ => ?_))
  refine sure_pure (sure_buildItemDTO hE.tolerant ?_)
  obtain ⟨d, clock, o, v, hrow, rfl⟩ := hx.1
  obtain ⟨_, _, hmade⟩ := itemRow_ok (Relation.made_of_inserted (T := itemRows) hrow)
  refine congrArg ExpenseItem.categoryID hmade ▸ ?_
  exact (hc.mono (List.prefix_append _ _)).mono (List.prefix_append _ _)

theorem sure_updateItem (hE : Fair E) {params : UpdateItemParams} :
    Sure actor E tr (ItemService.updateItem actor k i params) fun _ _ => True := by
  unfold ItemService.updateItem
  refine sure_bind (sure_editableReport hE fun tr₁ r => ?_)
  refine sure_bind (sure_getItem hE fun tr₂ x _ => ?_)
  refine sure_bind (sure_demand (fun _ _ => ?_) fun e he => hE.answered _ _ (answered_of_validateAmount he))
  refine sure_bind (sure_findCategory hE fun tr₃ category _ hc => ?_)
  refine sure_bind ?_
  unfold ItemRepo.update
  refine sure_bind (sure_errorf (sure_sql hE.tolerant.wrap fun row hrow => ?_))
  refine sure_bind ?_
  cases row with
  | none => exact sure_fail (hE.answered _ _ rfl)
  | some y =>
    refine sure_pure (sure_bind (sure_errorf (sure_sql hE.tolerant.wrap fun _ _ => ?_)))
    refine sure_pure (sure_buildItemDTO hE.tolerant ?_)
    obtain ⟨ws, hws, hall⟩ := hrow.1
    obtain ⟨_, _, _, z, _, hset⟩ := Relation.made_of_applied (T := itemRows) hall
      (List.mem_of_mem_head? hws.symm)
    obtain ⟨_, rfl⟩ := setItem_ok hset
    exact (hc.mono (List.prefix_append _ _)).mono (List.prefix_append _ _)

theorem sure_deleteItem (hE : Fair E) :
    Sure actor E tr (ItemService.deleteItem actor k i) fun _ _ => True := by
  unfold ItemService.deleteItem
  refine sure_bind (sure_editableReport hE fun tr₁ r => ?_)
  refine sure_bind (sure_getItem hE fun tr₂ x _ => ?_)
  exact sure_of_raw hE.tolerant raw_softDeleteItem fun _ _ _ => trivial

/-- The store is called: it has done what it was asked for, or has failed. -/
theorem sure_stored (hE : Tolerant E) {x : Ext} {γ : Type} {f : x.Result → Except GoError γ}
    {context : String} (hfail : ∀ r err, f r = .error err → Failing ⟨.ext x, r⟩) {g : γ → Service α}
    (hg : ∀ tr' b, Sure actor E tr' (g b) Q) :
    Sure actor E tr (ext x >>= fun r => errorf context (orFail (f r)) >>= g) Q := by
  refine sure_bind (Svc.ends_call.mpr ⟨trivial, fun r _ => ⟨fun r' hr' => ?_, fun err herr => ?_⟩⟩)
  · cases hr'
    refine sure_bind (sure_errorf ⟨fun b hb => hg _ b, fun err herr => ?_⟩)
    exact hE _ _ (failed_append (hfail r err herr))
  · cases herr

theorem sure_listAttachments (hE : Fair E) :
    Sure actor E tr (AttachmentService.listAttachments actor k i) fun _ _ => True := by
  unfold AttachmentService.listAttachments
  refine sure_bind (sure_getReport hE fun tr₁ r _ _ => ?_)
  refine sure_bind (sure_demand (fun _ _ => ?_) fun e he => hE.answered _ _ (answered_of_canView he))
  refine sure_bind (sure_getItem hE fun tr₂ x _ => ?_)
  refine sure_of_raw hE.tolerant ?_ fun _ _ _ => trivial
  exact raw_bind (raw_errorf raw_listAttachments) fun _ => raw_pure

theorem sure_generatePresignedURL (hE : Fair E) {disposition : String} :
    Sure actor E tr (AttachmentService.generatePresignedURL actor k i a disposition) fun _ _ => True := by
  unfold AttachmentService.generatePresignedURL
  refine sure_bind (sure_getReport hE fun tr₁ r _ _ => ?_)
  refine sure_bind (sure_demand (fun _ _ => ?_) fun e he => hE.answered _ _ (answered_of_canView he))
  refine sure_bind (sure_getAttachment hE fun tr₂ x _ => ?_)
  refine sure_stored hE.tolerant (fun r err hr => ?_) fun tr' b => ?_
  · obtain rfl : r = .error err := hr
    exact .presign _ _ _ _ _ err
  · exact sure_pure trivial

theorem sure_uploadAttachment (hE : Fair E) (hsize : ∀ tr, E tr (.sentinel .fileTooLarge))
    (htype : ∀ tr, E tr (.sentinel .invalidFileType)) {upload : FileUpload} :
    Sure actor E tr (AttachmentService.uploadAttachment actor k i upload) fun _ _ => True := by
  unfold AttachmentService.uploadAttachment
  refine sure_bind (sure_editableReport hE fun tr₁ r => ?_)
  refine sure_bind (sure_getItem hE fun tr₂ x _ => ?_)
  split
  · exact sure_fail (hsize _)
  · split
    · exact sure_fail (htype _)
    · split
      · exact sure_fail (htype _)
      · refine sure_bind (sure_of_raw hE.tolerant raw_ext fun tr₃ attachmentID _ => ?_)
        refine sure_stored hE.tolerant (fun r err hr => ?_) fun tr' b => ?_
        · obtain rfl : r = .error err := hr
          exact .upload _ _ _ err
        · refine sure_of_raw hE.tolerant ?_ fun _ _ _ => trivial
          exact raw_bind (raw_errorf (raw_errorf raw_sql)) fun _ => raw_pure

theorem sure_deleteAttachment (hE : Fair E) :
    Sure actor E tr (AttachmentService.deleteAttachment actor k i a) fun _ _ => True := by
  unfold AttachmentService.deleteAttachment
  refine sure_bind (sure_editableReport hE fun tr₁ r => ?_)
  refine sure_bind (sure_getAttachment hE fun tr₂ x _ => ?_)
  exact sure_of_raw hE.tolerant (raw_errorf raw_sql) fun _ _ _ => trivial

/-! #### People and tenants -/

theorem sure_getMe (hE : Tolerant E) : Sure actor E tr (AuthService.getMe actor) fun _ _ => True := by
  unfold AuthService.getMe
  refine sure_bind (sure_errorf (sure_getUser hE.wrap (Or.inr rfl) fun tr₁ user _ => ?_))
  refine sure_bind (sure_errorf (sure_getTenant hE.wrap fun tr₂ tenant _ => ?_))
  exact sure_pure trivial

/-- Every member that was listed is a user. -/
theorem sure_members (hE : Tolerant E) (ms : List TenantMembership)
    (hms : ∀ m ∈ ms, Named tr m.userID) :
    Sure actor E tr (Svc.each TenantService.memberSummary ms) fun _ _ => True := by
  induction ms generalizing tr with
  | nil => exact sure_pure trivial
  | cons m ms ih =>
    have hm := hms m List.mem_cons_self
    refine sure_bind (sure_bind (sure_errorf (sure_getUser hE.wrap (Or.inl hm) fun tr₁ user h₁ => ?_)))
    refine sure_pure (sure_bind (sure_mono (ih fun m' hm' => ?_) fun _ _ _ => sure_pure trivial))
    exact (hms m' (List.mem_cons_of_mem _ hm')).mono h₁

theorem sure_listTenantMembers (hE : Tolerant E) :
    Sure actor E tr (TenantService.listTenantMembers actor) fun _ _ => True := by
  unfold TenantService.listTenantMembers MembershipRepo.listByTenantID
  refine sure_bind (sure_errorf (sure_errorf (sure_sql hE.wrap.wrap fun ms _ => ?_)))
  exact sure_members hE ms fun m hm => named_append (List.mem_map_of_mem hm)

/-- The one lookup whose error is looked into: `errors.Is` sees through the wrapping. -/
theorem sure_getTenantService (hE : Tolerant E) :
    Sure actor E tr (TenantService.getTenant actor) fun _ _ => True := by
  unfold TenantService.getTenant
  have hlookup : Sure actor (fun tr _ => Failed tr) tr (TenantRepo.getByID .tx actor.tenantID)
      fun _ _ => True := sure_getTenant (fun _ _ hf => hf) fun _ _ _ => trivial
  refine Svc.ends_bind.mpr (Svc.ends_attempt.mpr (Svc.ends_mono hlookup fun tr₁ r hr => ?_))
  cases r with
  | ok tenant => exact sure_pure trivial
  | error err =>
    have hf : Failed tr₁ := hr.2 err rfl
    show Sure actor E tr₁ (if err.is .resourceNotFound then fail .resourceNotFound
      else throw (.wrap "tenantService.GetTenant" err)) fun _ _ => True
    split
    · exact sure_fail (hE _ _ hf)
    · refine ⟨fun a ha => ?_, fun err' herr => hE _ _ hf⟩
      cases ha

/-! ### The calls -/

/-- Every request ends in a result or in an error with a status of its own. -/
theorem sure_service {e : Endpoint} :
    Sure actor (Blameless e.responder) tr (e.service actor) fun _ _ => True := by
  have hd := fair_domain
  have ha := fair_attachment
  cases e with
  | getMe => exact sure_map (sure_getMe hd.tolerant)
  | getDashboard => exact sure_map (sure_of_raw hd.tolerant raw_getDashboard fun _ _ _ => trivial)
  | listCategories => exact sure_map (sure_of_raw hd.tolerant raw_listCategories fun _ _ _ => trivial)
  | listMyReports params => exact sure_map (sure_of_raw hd.tolerant raw_listMyReports fun _ _ _ => trivial)
  | createReport params => exact sure_map (sure_createReport hd)
  | getReport k => exact sure_map (sure_getReportService hd)
  | updateReport k params => exact sure_map (sure_updateReport hd)
  | deleteReport k => exact sure_map (sure_deleteReport hd)
  | submitReport k v => exact sure_map (sure_submitReport hd)
  | createItem k params => exact sure_map (sure_createItem hd)
  | updateItem k i params => exact sure_map (sure_updateItem hd)
  | deleteItem k i => exact sure_map (sure_deleteItem hd)
  | uploadAttachment k i upload =>
    exact sure_map (sure_uploadAttachment ha (fun _ => Or.inl (by decide)) (fun _ => Or.inl (by decide)))
  | listAttachments k i => exact sure_map (sure_listAttachments hd)
  | getAttachmentDownload k i a => exact sure_map (sure_generatePresignedURL hd)
  | getAttachmentPreview k i a => exact sure_map (sure_generatePresignedURL hd)
  | deleteAttachment k i a => exact sure_map (sure_deleteAttachment hd)
  | listPendingReports params =>
    exact sure_map (sure_of_raw hd.tolerant raw_listPendingReports fun _ _ _ => trivial)
  | listProcessedReports params =>
    exact sure_map (sure_of_raw hd.tolerant raw_listProcessedReports fun _ _ _ => trivial)
  | approveReport k comment v =>
    exact sure_map (sure_decideOn hd (fun _ _ => answered_of_canApproveOrReject)
      fun _ _ _ => answered_of_approve)
  | rejectReport k reason v hle =>
    exact sure_map (sure_decideOn hd (fun _ _ => answered_of_canApproveOrReject)
      fun _ _ _ => answered_of_reject)
  | listPayableReports params =>
    exact sure_map (sure_of_raw hd.tolerant raw_listPayableReports fun _ _ _ => trivial)
  | markReportAsPaid k v =>
    exact sure_map (sure_decideOn hd (fun _ _ => answered_of_canMarkAsPaid)
      fun _ _ _ => answered_of_markAsPaid)
  | listAllReports params =>
    exact sure_map (sure_of_raw hd.tolerant raw_listAllReports fun _ _ _ => trivial)
  | listTenantMembers => exact sure_map (sure_listTenantMembers hd.tolerant)
  | getTenant => exact sure_map (sure_getTenantService hd.tolerant)

/-- A role that is not let through is told so. -/
theorem sure_requireRole {e : Endpoint} : Sure actor (Blameless e.responder) tr
    (requireRole actor e.roles (e.service actor)) fun _ _ => True := by
  unfold requireRole
  split
  · exact sure_service
  · exact sure_fail (fair_responder.answered _ _ rfl)

theorem Blameless.mono {responder : Responder} {err : GoError} (h : Blameless responder tr err)
    (hp : tr <+: tr') : Blameless responder tr' err :=
  h.imp_right fun hf => hf.mono hp

/-- The transaction around a request has failed wherever it ends in an error of its own. -/
theorem blameless_tenantContext {responder : Responder} {handler : Service Payload}
    (h : ∀ tr, Sure actor (Blameless responder) tr handler fun _ _ => True) :
    Prog.wp (faultContract actor) [] (tenantContext t responder handler) fun tr a =>
      ∀ err, a = .error err → Blameless responder tr err := by
  have hback : ∀ (tr : Trace) (a : Outcome), (∀ err, a = .error err → Blameless responder tr err) →
      Prog.wp (faultContract actor) tr (do let _ ← issue .rollback; pure a : Program Outcome)
        fun tr a => ∀ err, a = .error err → Blameless responder tr err :=
    fun tr a ha => ⟨trivial, fun _ _ err herr => (ha err herr).mono (List.prefix_append _ _)⟩
  unfold tenantContext issue
  rw [Prog.wp_bind, Prog.wp_call]
  refine ⟨trivial, fun b _ => ?_⟩
  cases b with
  | error err => exact hback _ _ fun _ _ => Or.inr (failed_append (.begin err))
  | ok b =>
    refine Prog.wp_bind.mpr (Prog.wp_call.mpr ⟨trivial, fun r _ => ?_⟩)
    cases r with
    | error err => exact hback _ _ fun _ _ => Or.inr (failed_append (.sql _ err))
    | ok u =>
      refine Prog.wp_bind.mpr (Prog.wp_mono (h _) fun tr r hr => ?_)
      have hr : ∀ err, r = .error err → Blameless responder tr err := hr.2
      split
      · refine ⟨trivial, fun c _ => ?_⟩
        have hr' : ∀ err, r = .error err → Blameless responder (tr ++ [⟨.commit, c⟩]) err :=
          fun err herr => (hr err herr).mono (List.prefix_append _ _)
        cases c with
        | ok c => exact hr'
        | error err => exact hback _ _ hr'
      · exact hback _ _ hr

/-- What a call relies on. -/
def Call.relies : Call → Contract Command Command.Resp
  | .tenant actor _ => faultContract actor
  | _ => ⟨fun _ _ => True, fun _ _ _ => True⟩

/-- A request that ends in an error is to blame, or something has failed. -/
def CallBlameless (call : Call) (tr : Trace) (a : Outcome) : Prop :=
  ∀ actor e, call = .tenant actor e → ∀ err, a = .error err → Blameless e.responder tr err

theorem call_blameless (call : Call) : Prog.wp call.relies [] (server.code call) (CallBlameless call) := by
  cases call with
  | tenant actor e =>
    refine Prog.wp_mono (blameless_tenantContext fun _ => sure_requireRole) fun tr a ha actor' e' hcall => ?_
    cases hcall
    exact ha
  | _ =>
    refine Prog.wp_of_free (fun _ _ => trivial) fun tr a actor e hcall => ?_
    cases hcall

end

end

end ExpenseSaas
