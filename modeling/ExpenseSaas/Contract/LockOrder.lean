import ExpenseSaas.Contract.Shape

/-!
# The order in which rows are locked

A transaction keeps the rows it has written until it ends, so the order of its
statements is the order in which it locks them. `Before` lists the pairs of
writing statements that one transaction may issue in turn, for every call but
CreateReport, whose rows nobody else knows of (`call_inOrder`).

`DeleteItem` deletes attachments before the item, `DeleteReport` items before
the attachments: the two orders are not one.
-/

namespace ExpenseSaas

open ReadCommitted Sql

/-- A transaction that has written with `q'` may go on to write with `q`. -/
inductive Before : Stmt → Stmt → Prop where
  | itemsAttachments {t k} :
      Before (.softDeleteExpenseItemsByReportID t k) (.softDeleteAttachmentsByReportID t k)
  | itemsReport {t k} : Before (.softDeleteExpenseItemsByReportID t k) (.softDeleteReport t k)
  | attachmentsReport {t k} : Before (.softDeleteAttachmentsByReportID t k) (.softDeleteReport t k)
  | attachmentsItem {t k i} :
      Before (.softDeleteAttachmentsByItemID t k i) (.softDeleteExpenseItem t k i)
  | attachmentsTotal {t k i} :
      Before (.softDeleteAttachmentsByItemID t k i) (.updateReportTotalAmount t k)
  | itemTotal {t k i} : Before (.softDeleteExpenseItem t k i) (.updateReportTotalAmount t k)
  | editTotal {p t k} : Before (.updateExpenseItem p) (.updateReportTotalAmount t k)
  | addTotal {p} : Before (.createExpenseItem p) (.updateReportTotalAmount p.tenantID p.reportID)
  | tenantUser {n email name h} : Before (.createTenant n) (.createUser email name h)
  | tenantMembership {n t u role} : Before (.createTenant n) (.createMembership t u role)
  | tenantToken {n j u d x} : Before (.createTenant n) (.createRefreshToken j u d x)
  | userMembership {email name h t u role} :
      Before (.createUser email name h) (.createMembership t u role)
  | userToken {email name h j u d x} : Before (.createUser email name h) (.createRefreshToken j u d x)
  | membershipToken {t u role j u' d x} :
      Before (.createMembership t u role) (.createRefreshToken j u' d x)
  | passwordMark {u h k} : Before (.updateUserPassword u h) (.markPasswordResetTokenUsed k)
  | passwordRevoke {u h u'} : Before (.updateUserPassword u h) (.revokeAllByUserID u')
  | markRevoke {k u} : Before (.markPasswordResetTokenUsed k) (.revokeAllByUserID u)

/-- The statements the open transaction has written with are among these. -/
def WroteAmong (tr : Trace) (l : List Stmt) : Prop := ∀ (q : Stmt) (r : q.Result),
  (⟨.sql q, .ok r⟩ : Event Command Command.Resp) ∈ server.current tr → server.reads q = true ∨ q ∈ l

/-- A statement that writes comes in turn. -/
def InOrder (tr : Trace) : Command → Prop
  | .sql q => server.reads q = true ∨ ∀ (q' : Stmt) (r : q'.Result),
      (⟨.sql q', .ok r⟩ : Event Command Command.Resp) ∈ server.current tr →
        server.reads q' = true ∨ Before q' q
  | _ => True

abbrev ordered : Contract Command Command.Resp := server.contract InOrder

section

variable {tr : Trace} {actor : Actor} {α : Type} {l : List Stmt} {k i a : UUID}

theorem wroteAmong_of_none (h : server.current tr = []) : WroteAmong tr l := by
  intro q r hev
  rw [h] at hev
  cases hev

theorem WroteAmong.append (h : WroteAmong tr l) {q : Stmt} {r : Command.Resp (.sql q)}
    (hq : server.reads q = true ∨ q ∈ l) : WroteAmong (tr ++ [⟨.sql q, r⟩]) l := by
  intro q' r' hev
  rw [Engine.current_sql, List.mem_append, List.mem_singleton] at hev
  rcases hev with hev | hev
  · exact h q' r' hev
  · cases hev
    exact hq

theorem WroteAmong.weaken (h : WroteAmong tr l) {l' : List Stmt} (hl : l ⊆ l') : WroteAmong tr l' := by
  intro q r hev
  exact (h q r hev).imp_right fun hq => hl hq

theorem WroteAmong.ext (h : WroteAmong tr l) {x : Ext} {r : Command.Resp (.ext x)} : WroteAmong (tr ++ [⟨.ext x, r⟩]) l := by
  intro q r' hev
  rw [Engine.current_ext] at hev
  exact h q r' hev

/-- What reads is never out of order, and changes nothing. -/
theorem turn_reads {t : UUID} {x : Service α} {Q : Trace → α → Prop} (hx : ReadsIn t x) (h : WroteAmong tr l)
    (hQ : ∀ tr' a, WroteAmong tr' l → Q tr' a) : Svc.wp ordered tr x Q := by
  refine Prog.wp_of_only_inv (I := fun tr => WroteAmong tr l) hx (fun tr c _ hc => ?_) (fun tr c r h hc _ => ?_)
    h fun tr' r hr a _ => hQ tr' a hr
  · cases c with
    | sql q => exact Or.inl (reads_of_readsIn hc)
    | _ => trivial
  · cases c with
    | sql q => exact h.append (Or.inl (reads_of_readsIn hc))
    | ext x => exact h.ext
    | _ => exact hc.elim

theorem turn_write {q : Stmt} {Q : Trace → q.Result → Prop} (h : WroteAmong tr l) (hq : ∀ q' ∈ l, Before q' q)
    (hQ : ∀ tr' r, WroteAmong tr' (l ++ [q]) → Q tr' r) : Svc.wp ordered tr (sql q) Q := by
  refine wp_sql (Or.inr fun q' r hev => (h q' r hev).imp_right (hq q')) fun r _ => hQ _ r ?_
  exact (h.weaken (List.subset_append_left _ _)).append (Or.inr (List.mem_append_right _ (List.mem_singleton_self q)))

theorem before_one {q₁ q : Stmt} (h : Before q₁ q) : ∀ q' ∈ [q₁], Before q' q :=
  List.forall_mem_singleton.mpr h

theorem before_two {q₁ q₂ q : Stmt} (h₁ : Before q₁ q) (h₂ : Before q₂ q) : ∀ q' ∈ [q₁, q₂], Before q' q :=
  List.forall_mem_cons.mpr ⟨h₁, before_one h₂⟩

/-! ## Requests -/

theorem turn_orNoRows {R : Type} {e : DomainError} {row : Option R} {Q : Trace → R → Prop}
    (hQ : ∀ r, Q tr r) : Svc.wp ordered tr (orNoRows e row) Q := by
  cases row with
  | none => exact wp_fail.mpr trivial
  | some r => exact Svc.wp_pure.mpr (hQ r)

theorem inOrder_updateReport {params : UpdateReportParams} (h : WroteAmong tr []) :
    Svc.wp ordered tr (ReportService.updateReport actor k params) fun _ _ => True := by
  unfold ReportService.updateReport ReportRepo.update
  simp only [Svc.wp_bind]
  refine turn_reads (looks_getReport (t := actor.tenantID)).reads h fun tr₁ r h₁ => ?_
  refine turn_reads (t := actor.tenantID) readsIn_demand h₁ fun tr₂ _ h₂ => ?_
  refine turn_reads (t := actor.tenantID) readsIn_demand h₂ fun tr₃ _ h₃ => ?_
  split
  · exact wp_fail.mpr trivial
  · rw [Svc.wp_bind, Svc.wp_bind, wp_errorf]
    refine turn_write h₃ (List.forall_mem_nil _) fun tr₄ row h₄ => turn_orNoRows fun r' => ?_
    exact turn_reads looks_buildDetail.reads h₄ fun _ _ _ => trivial

theorem turn_updateStatus {r : ExpenseReport} (h : WroteAmong tr []) {Q : Trace → ExpenseReport → Prop}
    (hQ : ∀ tr' r' l, WroteAmong tr' l → Q tr' r') : Svc.wp ordered tr (ReportRepo.updateStatus r) Q := by
  unfold ReportRepo.updateStatus
  rw [Svc.wp_bind, wp_errorf]
  exact turn_write h (List.forall_mem_nil _) fun tr₄ row h₄ => turn_orNoRows fun r' => hQ _ r' _ h₄

theorem inOrder_submitReport {v : Timestamp} (h : WroteAmong tr []) :
    Svc.wp ordered tr (ReportService.submitReport actor k v) fun _ _ => True := by
  unfold ReportService.submitReport
  simp only [Svc.wp_bind]
  refine turn_reads (looks_getReport (t := actor.tenantID)).reads h fun tr₁ r h₁ => ?_
  refine turn_reads (t := actor.tenantID) readsIn_demand h₁ fun tr₂ _ h₂ => ?_
  split
  · exact wp_fail.mpr trivial
  · simp only [Svc.wp_bind, wp_errorf]
    refine turn_reads (looks_hasApprover (t := actor.tenantID)).reads h₂ fun tr₃ _ h₃ => ?_
    refine turn_reads (looks_listItems (t := actor.tenantID)).reads h₃ fun tr₄ _ h₄ => ?_
    refine turn_reads (t := actor.tenantID) readsIn_ext h₄ fun tr₅ _ h₅ => ?_
    refine turn_reads (t := actor.tenantID) readsIn_demand h₅ fun tr₆ _ h₆ => ?_
    refine turn_updateStatus h₆ fun tr₇ r' l h₇ => ?_
    exact turn_reads looks_buildDetail.reads h₇ fun _ _ _ => trivial

theorem inOrder_decideOn {v : Timestamp} {authorize : Actor → ExpenseReport → Except DomainError Unit}
    {transition : Timestamp → ExpenseReport → Except DomainError ExpenseReport} (h : WroteAmong tr []) :
    Svc.wp ordered tr (WorkflowService.decideOn actor k v authorize transition) fun _ _ => True := by
  unfold WorkflowService.decideOn
  simp only [Svc.wp_bind]
  refine turn_reads (looks_getReport (t := actor.tenantID)).reads h fun tr₁ r h₁ => ?_
  refine turn_reads (t := actor.tenantID) readsIn_demand h₁ fun tr₂ _ h₂ => ?_
  split
  · exact wp_fail.mpr trivial
  · simp only [Svc.wp_bind]
    refine turn_reads (t := actor.tenantID) readsIn_ext h₂ fun tr₃ _ h₃ => ?_
    refine turn_reads (t := actor.tenantID) readsIn_demand h₃ fun tr₄ _ h₄ => ?_
    refine turn_updateStatus h₄ fun tr₅ r' l h₅ => ?_
    exact turn_reads (looks_buildWorkflowDetail (t := actor.tenantID)).reads h₅ fun _ _ _ => trivial

theorem inOrder_deleteReport (h : WroteAmong tr []) :
    Svc.wp ordered tr (ReportService.deleteReport actor k) fun _ _ => True := by
  unfold ReportService.deleteReport ReportRepo.softDelete
  simp only [Svc.wp_bind, wp_errorf]
  refine turn_reads (looks_getReport (t := actor.tenantID)).reads h fun tr₁ r h₁ => ?_
  refine turn_reads (t := actor.tenantID) readsIn_demand h₁ fun tr₂ _ h₂ => ?_
  refine turn_reads (t := actor.tenantID) readsIn_ext h₂ fun tr₃ _ h₃ => ?_
  refine turn_reads (t := actor.tenantID) readsIn_demand h₃ fun tr₄ _ h₄ => ?_
  refine turn_write h₄ (List.forall_mem_nil _) fun tr₅ _ h₅ => ?_
  refine turn_write h₅ (before_one .itemsAttachments) fun tr₆ _ h₆ => ?_
  exact turn_write h₆ (before_two .itemsReport .attachmentsReport) fun _ _ _ => trivial

theorem inOrder_createItem {params : CreateItemParams} (h : WroteAmong tr []) :
    Svc.wp ordered tr (ItemService.createItem actor k params) fun _ _ => True := by
  unfold ItemService.createItem ItemRepo.create
  simp only [Svc.wp_bind, wp_errorf, Svc.wp_pure]
  refine turn_reads looks_editableReport.reads h fun tr₁ r h₁ => ?_
  refine turn_reads (t := actor.tenantID) readsIn_demand h₁ fun tr₂ _ h₂ => ?_
  refine turn_reads (looks_getCategory (t := actor.tenantID)).reads h₂ fun tr₃ _ h₃ => ?_
  refine turn_write h₃ (List.forall_mem_nil _) fun tr₄ x h₄ => ?_
  refine turn_write h₄ (before_one .addTotal) fun tr₅ _ h₅ => ?_
  exact turn_reads looks_buildItemDTO.reads h₅ fun _ _ _ => trivial

theorem inOrder_updateItem {params : UpdateItemParams} (h : WroteAmong tr []) :
    Svc.wp ordered tr (ItemService.updateItem actor k i params) fun _ _ => True := by
  unfold ItemService.updateItem ItemRepo.update
  simp only [Svc.wp_bind, wp_errorf, Svc.wp_pure]
  refine turn_reads looks_editableReport.reads h fun tr₁ r h₁ => ?_
  refine turn_reads (looks_getItem (t := actor.tenantID)).reads h₁ fun tr₂ x h₂ => ?_
  refine turn_reads (t := actor.tenantID) readsIn_demand h₂ fun tr₃ _ h₃ => ?_
  refine turn_reads (looks_getCategory (t := actor.tenantID)).reads h₃ fun tr₄ _ h₄ => ?_
  refine turn_write h₄ (List.forall_mem_nil _) fun tr₅ row h₅ => turn_orNoRows fun y => ?_
  refine turn_write h₅ (before_one .editTotal) fun tr₆ _ h₆ => ?_
  exact turn_reads looks_buildItemDTO.reads h₆ fun _ _ _ => trivial

theorem inOrder_deleteItem (h : WroteAmong tr []) :
    Svc.wp ordered tr (ItemService.deleteItem actor k i) fun _ _ => True := by
  unfold ItemService.deleteItem ItemRepo.softDelete
  simp only [Svc.wp_bind, wp_errorf]
  refine turn_reads looks_editableReport.reads h fun tr₁ r h₁ => ?_
  refine turn_reads (looks_getItem (t := actor.tenantID)).reads h₁ fun tr₂ x h₂ => ?_
  refine turn_write h₂ (List.forall_mem_nil _) fun tr₃ _ h₃ => ?_
  refine turn_write h₃ (before_one .attachmentsItem) fun tr₄ _ h₄ => ?_
  exact turn_write h₄ (before_two .attachmentsTotal .itemTotal) fun _ _ _ => trivial

theorem inOrder_uploadAttachment {upload : FileUpload} (h : WroteAmong tr []) :
    Svc.wp ordered tr (AttachmentService.uploadAttachment actor k i upload) fun _ _ => True := by
  unfold AttachmentService.uploadAttachment
  simp only [Svc.wp_bind]
  refine turn_reads looks_editableReport.reads h fun tr₁ r h₁ => ?_
  refine turn_reads (looks_getItem (t := actor.tenantID)).reads h₁ fun tr₂ x h₂ => ?_
  split
  · exact wp_fail.mpr trivial
  · split
    · exact wp_fail.mpr trivial
    · split
      · exact wp_fail.mpr trivial
      · simp only [Svc.wp_bind, wp_errorf, Svc.wp_pure]
        refine turn_reads (t := actor.tenantID) readsIn_ext h₂ fun tr₃ _ h₃ => ?_
        refine turn_reads (t := actor.tenantID) readsIn_ext h₃ fun tr₄ _ h₄ => ?_
        refine turn_reads (t := actor.tenantID) readsIn_orFail h₄ fun tr₅ _ h₅ => ?_
        unfold AttachmentRepo.create
        rw [wp_errorf]
        exact turn_write h₅ (List.forall_mem_nil _) fun _ _ _ => trivial

theorem inOrder_deleteAttachment (h : WroteAmong tr []) :
    Svc.wp ordered tr (AttachmentService.deleteAttachment actor k i a) fun _ _ => True := by
  unfold AttachmentService.deleteAttachment AttachmentRepo.softDelete
  simp only [Svc.wp_bind, wp_errorf]
  refine turn_reads looks_editableReport.reads h fun tr₁ r h₁ => ?_
  refine turn_reads (looks_getAttachment (t := actor.tenantID)).reads h₁ fun tr₂ x h₂ => ?_
  exact turn_write h₂ (List.forall_mem_nil _) fun _ _ _ => trivial

/-- A service that only reads comes in turn. -/
theorem inOrder_of_reads {t : UUID} {x : Service α} (hx : ReadsIn t x) (h : WroteAmong tr []) :
    Svc.wp ordered tr x fun _ _ => True := turn_reads hx h fun _ _ _ => trivial

/-- Every endpoint but one writes in order. -/
theorem inOrder_service {e : Endpoint} (he : ∀ params, e ≠ .createReport params) (h : WroteAmong tr []) :
    Svc.wp ordered tr (e.service actor) fun _ _ => True := by
  have hmap : ∀ {β : Type} {x : Service β} {f : β → Payload}, Svc.wp ordered tr x (fun _ _ => True) →
      Svc.wp ordered tr (f <$> x) fun _ _ => True := fun hx =>
    Svc.wp_bind.mpr (Svc.wp_mono hx fun _ _ _ => Svc.wp_pure.mpr trivial)
  cases e with
  | getMe => exact hmap (inOrder_of_reads reads_getMe h)
  | getDashboard => exact hmap (inOrder_of_reads reads_getDashboard h)
  | listCategories => exact hmap (inOrder_of_reads reads_listCategories h)
  | listMyReports params => exact hmap (inOrder_of_reads reads_listMyReports h)
  | createReport params => exact absurd rfl (he params)
  | getReport k => exact hmap (inOrder_of_reads reads_getReportService h)
  | updateReport k params => exact hmap (inOrder_updateReport h)
  | deleteReport k => exact hmap (inOrder_deleteReport h)
  | submitReport k v => exact hmap (inOrder_submitReport h)
  | createItem k params => exact hmap (inOrder_createItem h)
  | updateItem k i params => exact hmap (inOrder_updateItem h)
  | deleteItem k i => exact hmap (inOrder_deleteItem h)
  | uploadAttachment k i upload => exact hmap (inOrder_uploadAttachment h)
  | listAttachments k i => exact hmap (inOrder_of_reads reads_listAttachmentsService h)
  | getAttachmentDownload k i a => exact hmap (inOrder_of_reads reads_generatePresignedURL h)
  | getAttachmentPreview k i a => exact hmap (inOrder_of_reads reads_generatePresignedURL h)
  | deleteAttachment k i a => exact hmap (inOrder_deleteAttachment h)
  | listPendingReports params => exact hmap (inOrder_of_reads reads_listPendingReports h)
  | listProcessedReports params => exact hmap (inOrder_of_reads reads_listProcessedReports h)
  | approveReport k comment v => exact hmap (inOrder_decideOn h)
  | rejectReport k reason v hle => exact hmap (inOrder_decideOn h)
  | listPayableReports params => exact hmap (inOrder_of_reads reads_listPayableReports h)
  | markReportAsPaid k v => exact hmap (inOrder_decideOn h)
  | listAllReports params => exact hmap (inOrder_of_reads reads_listAllReports h)
  | listTenantMembers => exact hmap (inOrder_of_reads reads_listTenantMembers h)
  | getTenant => exact hmap (inOrder_of_reads reads_getTenantService h)

/-- The transaction around a request writes nothing of its own. -/
theorem inOrder_tenantContext {t : UUID} {responder : Responder} {handler : Service Payload}
    (h : ∀ tr, WroteAmong tr [] → Svc.wp ordered tr handler fun _ _ => True) :
    Prog.wp ordered [] (tenantContext t responder handler) fun _ _ => True := by
  have hback : ∀ (tr : Trace) (a : Outcome),
      Prog.wp ordered tr (do let _ ← issue .rollback; pure a : Program Outcome) fun _ _ => True :=
    fun tr a => ⟨trivial, fun _ _ => trivial⟩
  unfold tenantContext issue
  rw [Prog.wp_bind, Prog.wp_call]
  refine ⟨trivial, fun b _ => ?_⟩
  cases b with
  | error err => exact hback _ _
  | ok b =>
    refine Prog.wp_bind.mpr (Prog.wp_call.mpr ⟨Or.inl rfl, fun r _ => ?_⟩)
    have hnone : WroteAmong ([] ++ [⟨.begin, .ok b⟩] ++ [⟨.sql (.setCurrentTenant t), r⟩]) [] :=
      (wroteAmong_of_none Engine.current_begin).append (Or.inl rfl)
    cases r with
    | error err => exact hback _ _
    | ok u =>
      refine Prog.wp_bind.mpr (Prog.wp_mono (h _ hnone) fun tr r _ => ?_)
      split
      · refine ⟨trivial, fun c _ => ?_⟩
        cases c with
        | ok c => trivial
        | error err => exact hback _ _
      · exact hback _ _

/-! ## Authentication

Whatever came before, a transaction of the owner pool begins anew.
-/

/-- The service keeps to the order, whatever came before. -/
def Anew (x : Service α) : Prop := ∀ tr, Svc.ends ordered tr x fun _ _ => True

variable {β : Type}

theorem anew_bind {x : Service β} {f : β → Service α} (hx : Anew x) (hf : ∀ b, Anew (f b)) :
    Anew (x >>= f) := fun tr =>
  Svc.ends_bind.mpr (Svc.ends_mono (hx tr) fun tr' r _ => by
    cases r with
    | ok b => exact hf b tr'
    | error err => trivial)

theorem anew_pure {a : α} : Anew (pure a : Service α) := fun _ => trivial

theorem anew_throw {err : GoError} : Anew (throw err : Service α) := fun _ => trivial

theorem anew_fail {e : DomainError} : Anew (fail e : Service α) := fun _ => trivial

theorem anew_ofExcept {x : Except GoError α} : Anew (Svc.ofExcept x : Service α) := fun _ => trivial

theorem anew_errorf {context : String} {x : Service α} (hx : Anew x) : Anew (errorf context x) := fun tr =>
  Svc.ends_mapError.mpr (Svc.ends_mono (hx tr) fun _ _ _ => trivial)

theorem anew_attempt {x : Service α} (hx : Anew x) : Anew (Svc.attempt x) := fun tr =>
  Svc.ends_attempt.mpr (Svc.ends_mono (hx tr) fun _ _ _ => trivial)

theorem anew_call (c : Command) (hc : ∀ tr, InOrder tr c) : Anew (call c) := fun tr =>
  Svc.ends_call.mpr ⟨hc tr, fun _ _ => trivial⟩

theorem anew_ext {x : Ext} : Anew (ext x) := anew_call (.ext x) fun _ => trivial

theorem anew_orNoRows {e : DomainError} {row : Option α} : Anew (orNoRows e row) := by
  cases row with
  | none => exact anew_fail
  | some r => exact anew_pure

/-- A statement on a bare connection is the first of its transaction. -/
theorem anew_autocommit {q : Stmt} : Anew (autocommit q) := by
  intro tr
  refine Svc.ends_bind.mpr (Svc.ends_call.mpr ⟨trivial, fun b _ => ?_⟩)
  refine Svc.ends_bind.mpr ?_
  cases b with
  | error err => trivial
  | ok b =>
    refine Svc.ends_bind.mpr (Svc.ends_call.mpr ⟨Or.inr fun q' r hev => ?_, fun r _ => ?_⟩)
    · rw [Engine.current_begin] at hev
      cases hev
    · cases r with
      | ok x =>
        exact anew_bind (anew_call .commit fun _ => trivial)
          (fun c => anew_bind anew_ofExcept fun _ => anew_pure) _
      | error err =>
        exact anew_bind (anew_call .rollback fun _ => trivial) (fun _ => anew_throw) _

theorem anew_notFoundIs {e : DomainError} {context : String} {x : Service α} (hx : Anew x) :
    Anew (notFoundIs e context x) := by
  refine anew_bind (anew_attempt hx) fun r => ?_
  cases r with
  | ok a => exact anew_pure
  | error err =>
    show Anew (if err.is .resourceNotFound then fail e else throw (.wrap context err) : Service α)
    split
    · exact anew_fail
    · exact anew_throw

theorem anew_withConn {context : String} {body : Service α} (h : Anew body) :
    Anew (withConn context body) :=
  anew_bind anew_ext fun _ => anew_bind (anew_errorf anew_ofExcept) fun _ =>
    anew_bind (anew_attempt h) fun _ => anew_bind anew_ext fun _ => anew_ofExcept

/-- The body of a transaction keeps to the order from its beginning. -/
theorem anew_withTx {beginContext commitContext : String} {body : Service α}
    (h : ∀ tr, WroteAmong tr [] → Svc.ends ordered tr body fun _ _ => True) :
    Anew (withTx beginContext commitContext body) := by
  refine anew_bind anew_ext fun conn => anew_bind (anew_errorf anew_ofExcept) fun _ tr => ?_
  refine Svc.ends_bind.mpr (Svc.ends_call.mpr ⟨trivial, fun b _ => ?_⟩)
  cases b with
  | error err => exact anew_bind anew_ext (fun _ => anew_throw) _
  | ok b =>
    refine Svc.ends_bind.mpr (Svc.ends_attempt.mpr (Svc.ends_mono (h _ (wroteAmong_of_none ?_)) fun tr' r _ => ?_))
    · exact Engine.current_begin
    · cases r with
      | ok a =>
        refine anew_bind (anew_call .commit fun _ => trivial) (fun c => anew_bind anew_ext fun _ => ?_) _
        rcases c with err | ok
        · exact anew_throw
        · cases ok
          · exact anew_throw
          · exact anew_pure
      | error err =>
        exact anew_bind (anew_call .rollback fun _ => trivial)
          (fun _ => anew_bind anew_ext fun _ => anew_throw) _

/-! ### The calls -/

theorem anew_exec {q : Stmt} : Anew (DBTX.conn.exec q) := anew_autocommit

theorem anew_row {R : Type} {q : Stmt} {context : String} {e : DomainError} {f : q.Result → Option R} :
    Anew (do let row ← errorf context (DBTX.conn.exec q); orNoRows e (f row)) :=
  anew_bind (anew_errorf anew_exec) fun _ => anew_orNoRows

theorem readsIn_of_exts {t : UUID} {x : Service α} (h : Svc.Only IsExt x) : ReadsIn t x :=
  Prog.only_mono h fun c hc => by
    cases c with
    | ext x => trivial
    | _ => exact hc.elim

theorem anew_of_exts {x : Service α} (h : Svc.Only IsExt x) : Anew x := fun _ =>
  Prog.wp_of_only h (fun tr c hc => by
    cases c with
    | ext x => trivial
    | _ => exact hc.elim) fun _ _ _ => trivial

theorem anew_issueRefreshToken {u : UUID} {generate verify save : String} :
    Anew (AuthService.issueRefreshToken .conn u generate verify save) :=
  anew_bind (anew_errorf (anew_of_exts exts_generateRefreshToken)) fun _ =>
    anew_bind (anew_errorf (anew_of_exts exts_verifyRefreshToken)) fun _ => anew_bind anew_ext fun _ =>
      anew_bind (anew_errorf (anew_errorf anew_exec)) fun _ => anew_pure

theorem anew_emailTaken {email : String} : Anew (AuthService.emailTaken email) := by
  refine anew_bind (anew_attempt anew_row) fun r => ?_
  cases r with
  | ok u => exact anew_pure
  | error err =>
    show Anew (if err.is .resourceNotFound then pure false
      else throw (.wrap "authService.Signup: check email" err) : Service Bool)
    split
    · exact anew_pure
    · exact anew_throw

theorem anew_loginConn {user : User} : Anew (AuthService.loginConn user) :=
  anew_bind (anew_notFoundIs anew_row) fun _ => anew_bind (anew_errorf anew_row) fun _ =>
    anew_bind (anew_errorf (anew_of_exts exts_generateAccessToken)) fun _ =>
      anew_bind anew_issueRefreshToken fun _ => anew_pure

theorem anew_login {email password : String} : Anew (AuthService.login email password) := by
  refine anew_bind (anew_notFoundIs anew_row) fun user => ?_
  split
  · exact anew_fail
  · exact anew_fail
  · exact anew_withConn anew_loginConn

theorem anew_refreshToken {token : RefreshTokenText} : Anew (AuthService.refreshToken token) := by
  refine anew_bind (anew_of_exts exts_verifyRefreshToken) fun claims => anew_withConn ?_
  refine anew_bind (anew_notFoundIs anew_row) fun stored => ?_
  split
  · exact anew_bind (anew_attempt (anew_errorf anew_exec)) fun _ => anew_fail
  · exact anew_bind (anew_errorf (anew_errorf anew_exec)) fun _ =>
      anew_bind (anew_errorf anew_row) fun _ => anew_bind (anew_errorf anew_row) fun _ =>
        anew_bind (anew_errorf anew_row) fun _ => anew_bind (anew_errorf (anew_of_exts exts_generateAccessToken)) fun _ =>
          anew_bind anew_issueRefreshToken fun _ => anew_pure

theorem anew_logout {token : RefreshTokenText} : Anew (AuthService.logout token) := by
  refine anew_bind (anew_of_exts exts_verifyRefreshToken) fun claims => anew_withConn ?_
  refine anew_bind (anew_notFoundIs anew_row) fun stored => ?_
  split
  · exact anew_fail
  · exact anew_errorf (anew_errorf anew_exec)

theorem anew_requestPasswordReset {email : String} : Anew (AuthService.requestPasswordReset email) := by
  refine anew_withConn (anew_bind (anew_attempt anew_row) fun r => ?_)
  cases r with
  | ok user =>
    exact anew_bind anew_ext fun _ => anew_bind (anew_errorf anew_ofExcept) fun _ => anew_bind anew_ext fun _ =>
      anew_bind (anew_errorf (anew_errorf anew_exec)) fun _ => anew_pure
  | error err =>
    show Anew (if err.is .resourceNotFound then pure ()
      else throw (.wrap "authService.RequestPasswordReset: get user by email" err) : Service Unit)
    split
    · exact anew_pure
    · exact anew_throw

theorem turn_createUser {email name : String} {passwordHash : PasswordHash} (h : WroteAmong tr l)
    (hl : ∀ q' ∈ l, Before q' (.createUser email name passwordHash)) {Q : Trace → User → Prop}
    (hQ : ∀ tr' u, WroteAmong tr' (l ++ [.createUser email name passwordHash]) → Q tr' u) :
    Svc.wp ordered tr (UserRepo.create .tx email name passwordHash) Q := by
  refine Svc.wp_bind.mpr (Svc.wp_attempt ?_)
  refine Svc.ends_bind.mpr (Svc.ends_call.mpr ⟨Or.inr fun q' r hev => (h q' r hev).imp_right (hl q'), fun r _ => ?_⟩)
  cases r with
  | ok u =>
    refine (Svc.wp_pure (G := ordered)).mpr (hQ _ u ?_)
    exact (h.weaken (List.subset_append_left _ _)).append
      (Or.inr (List.mem_append_right _ (List.mem_singleton_self _)))
  | error err =>
    show Svc.wp ordered _ (if (GoError.sql err).asSql = some .uniqueViolation then fail .emailAlreadyExists
      else throw (.wrap "userRepo.Create" (.sql err))) Q
    split
    · exact wp_fail.mpr trivial
    · exact Svc.wp_throw.mpr trivial

theorem inOrder_signupTx {params : SignupParams} {passwordHash : PasswordHash} (h : WroteAmong tr []) :
    Svc.wp ordered tr (AuthService.signupTx params passwordHash) fun _ _ => True := by
  unfold AuthService.signupTx AuthService.issueRefreshToken TenantRepo.create MembershipRepo.create
    RefreshTokenRepo.create DBTX.exec
  simp only [Svc.wp_bind, wp_errorf, Svc.wp_pure]
  refine turn_write h (List.forall_mem_nil _) fun tr₁ tenant h₁ => ?_
  refine turn_createUser h₁ (before_one .tenantUser) fun tr₂ user h₂ => ?_
  refine turn_write h₂ (before_two .tenantMembership .userMembership) fun tr₃ membership h₃ => ?_
  refine turn_reads (t := 0) (readsIn_of_exts exts_generateRefreshToken) h₃ fun tr₄ token h₄ => ?_
  refine turn_reads (t := 0) (readsIn_of_exts exts_verifyRefreshToken) h₄ fun tr₅ claims h₅ => ?_
  refine turn_reads (t := 0) readsIn_ext h₅ fun tr₆ now h₆ => ?_
  refine turn_write h₆ ?_ fun _ _ _ => trivial
  exact List.forall_mem_cons.mpr ⟨.tenantToken, before_two .userToken .membershipToken⟩

theorem inOrder_executePasswordResetTx {x : PasswordResetToken} {passwordHash : PasswordHash} (h : WroteAmong tr []) :
    Svc.wp ordered tr (AuthService.executePasswordResetTx x passwordHash) fun _ _ => True := by
  unfold AuthService.executePasswordResetTx UserRepo.updatePassword PasswordResetRepo.markUsed
    RefreshTokenRepo.revokeAllByUserID DBTX.exec
  simp only [Svc.wp_bind, wp_errorf]
  refine turn_write h (List.forall_mem_nil _) fun tr₁ _ h₁ => ?_
  refine turn_write h₁ (before_one .passwordMark) fun tr₂ _ h₂ => ?_
  exact turn_write h₂ (before_two .passwordRevoke .markRevoke) fun _ _ _ => trivial

theorem anew_signup {params : SignupParams} : Anew (AuthService.signup params) := by
  refine anew_bind anew_emailTaken fun taken => ?_
  split
  · exact anew_fail
  · refine anew_bind (anew_errorf (anew_of_exts exts_hashPassword)) fun passwordHash => ?_
    refine anew_bind (anew_withTx fun tr h => ?_) fun made => ?_
    · exact Svc.ends_mono (inOrder_signupTx h) fun _ _ _ => trivial
    · exact anew_bind (anew_errorf (anew_of_exts exts_generateAccessToken)) fun _ => anew_pure

theorem anew_executePasswordReset {token newPassword : String} :
    Anew (AuthService.executePasswordReset token newPassword) := by
  refine anew_withConn (anew_bind (anew_notFoundIs anew_row) fun stored => ?_)
  split
  · exact anew_fail
  · refine anew_bind anew_ext fun now => ?_
    split
    · exact anew_fail
    · refine anew_bind (anew_errorf (anew_of_exts exts_hashPassword)) fun newHash => anew_withTx fun tr h => ?_
      exact Svc.ends_mono (inOrder_executePasswordResetTx h) fun _ _ _ => trivial

/-- What a call promises about the order of its statements. -/
def Call.InOrder : Call → Trace → Command → Prop
  | .tenant _ (.createReport _), _, _ => True
  | _, tr, c => ExpenseSaas.InOrder tr c

/-- **Every call writes in order**, but for CreateReport. -/
theorem call_inOrder (call : Call) :
    Prog.wp (server.contract call.InOrder) [] (server.code call) fun _ _ => True := by
  have hanew : ∀ {β : Type} {x : Service β} {f : β → Payload}, Anew x →
      Prog.wp ordered [] (f <$> x : Service Payload).run fun _ _ => True := fun hx =>
    anew_bind hx (fun _ => anew_pure) []
  cases call with
  | tenant actor e =>
    by_cases he : ∃ params, e = .createReport params
    · obtain ⟨params, rfl⟩ := he
      exact Prog.wp_of_free (fun _ _ => trivial) fun _ _ => trivial
    · have he : ∀ params, e ≠ .createReport params := fun params h => he ⟨params, h⟩
      have hkept : Prog.wp ordered [] (server.code (.tenant actor e)) fun _ _ => True := by
        refine inOrder_tenantContext fun tr h => ?_
        unfold requireRole
        split
        · exact inOrder_service he h
        · exact wp_fail.mpr trivial
      have hcall : Call.InOrder (.tenant actor e) = ExpenseSaas.InOrder := by
        cases e <;> first
          | rfl
          | exact absurd rfl (he _)
      rw [hcall]
      exact hkept
  | signup params => exact hanew anew_signup
  | login email password => exact hanew anew_login
  | refreshToken token => exact hanew anew_refreshToken
  | logout token => exact hanew anew_logout
  | requestPasswordReset email => exact hanew anew_requestPasswordReset
  | executePasswordReset token password => exact hanew anew_executePasswordReset

end

end ExpenseSaas
