import ExpenseSaas.Contract.Calls

/-!
# The shape of a request

A handler only issues statements and calls to the outside: its transaction is
opened and closed around it by `TenantContext`. `Endpoint.issues` lists the
statements each endpoint writes with. Two things follow, whatever the handler
does. A request whose role the route does not let through issues no statement of
its own, and a request that is answered with an error has never issued a commit.
-/

namespace ExpenseSaas

open ReadCommitted Sql

/-- The command reads, or is a statement with `P`. -/
def Issues (P : Stmt → Prop) : Command → Prop
  | .sql q => server.reads q = true ∨ P q
  | .ext _ => True
  | _ => False

/-- The service writes with statements that have `P` only. -/
abbrev Issuing {α : Type} (P : Stmt → Prop) (x : Service α) : Prop := Svc.Only (Issues P) x

/-- The statements an endpoint writes with. -/
def Endpoint.issues : Endpoint → Stmt → Bool
  | .createReport _, .createReport _ => true
  | .createReport _, .createExpenseItem _ => true
  | .createReport _, .updateReportTotalAmount _ _ => true
  | .updateReport .., .updateReport _ => true
  | .deleteReport k, .softDeleteExpenseItemsByReportID _ k' => k' = k
  | .deleteReport k, .softDeleteAttachmentsByReportID _ k' => k' = k
  | .deleteReport k, .softDeleteReport _ k' => k' = k
  | .submitReport .., .updateReportStatus _ => true
  | .approveReport .., .updateReportStatus _ => true
  | .rejectReport .., .updateReportStatus _ => true
  | .markReportAsPaid .., .updateReportStatus _ => true
  | .createItem k _, .createExpenseItem p => p.reportID = k
  | .createItem k _, .updateReportTotalAmount _ k' => k' = k
  | .updateItem .., .updateExpenseItem _ => true
  | .updateItem .., .updateReportTotalAmount _ _ => true
  | .deleteItem k i, .softDeleteAttachmentsByItemID _ k' i' => k' = k && i' = i
  | .deleteItem k i, .softDeleteExpenseItem _ k' i' => k' = k && i' = i
  | .deleteItem k _, .updateReportTotalAmount _ k' => k' = k
  | .uploadAttachment k i _, .createAttachment p => p.reportID = k && p.itemID = i
  | .deleteAttachment k i a, .softDeleteAttachment _ k' i' a' => k' = k && i' = i && a' = a
  | _, _ => false

/-! What an endpoint is that issues a statement. -/

section

variable {e : Endpoint} {t k i : UUID}

theorem issues_softDeleteReport (h : e.issues (.softDeleteReport t k) = true) :
    e = .deleteReport k := by
  cases e with
  | deleteReport k' => rw [show k = k' from of_decide_eq_true h]
  | _ => exact absurd h Bool.false_ne_true

theorem issues_softDeleteItems (h : e.issues (.softDeleteExpenseItemsByReportID t k) = true) :
    e = .deleteReport k := by
  cases e with
  | deleteReport k' => rw [show k = k' from of_decide_eq_true h]
  | _ => exact absurd h Bool.false_ne_true

theorem issues_softDeleteItem (h : e.issues (.softDeleteExpenseItem t k i) = true) :
    e = .deleteItem k i := by
  cases e with
  | deleteItem k' i' =>
    obtain ⟨hk, hi⟩ := (Bool.and_eq_true _ _).mp h
    rw [show k = k' from of_decide_eq_true hk, show i = i' from of_decide_eq_true hi]
  | _ => exact absurd h Bool.false_ne_true

theorem issues_createItem {p : CreateExpenseItemParams}
    (h : e.issues (.createExpenseItem p) = true) :
    (∃ params, e = .createItem p.reportID params) ∨ ∃ params, e = .createReport params := by
  cases e with
  | createItem k params =>
    rw [show p.reportID = k from of_decide_eq_true h]
    exact Or.inl ⟨params, rfl⟩
  | createReport params => exact Or.inr ⟨params, rfl⟩
  | _ => exact absurd h Bool.false_ne_true

theorem issues_updateItem {p : UpdateExpenseItemParams}
    (h : e.issues (.updateExpenseItem p) = true) : ∃ k i params, e = .updateItem k i params := by
  cases e with
  | updateItem k i params => exact ⟨k, i, params, rfl⟩
  | _ => exact absurd h Bool.false_ne_true

theorem issues_createAttachment {p : CreateAttachmentParams}
    (h : e.issues (.createAttachment p) = true) :
    ∃ upload, e = .uploadAttachment p.reportID p.itemID upload := by
  cases e with
  | uploadAttachment k i upload =>
    obtain ⟨hk, hi⟩ := (Bool.and_eq_true _ _).mp h
    rw [show p.reportID = k from of_decide_eq_true hk, show p.itemID = i from of_decide_eq_true hi]
    exact ⟨upload, rfl⟩
  | _ => exact absurd h Bool.false_ne_true

end

/-- The service writes with statements of the endpoint only. -/
abbrev Within {α : Type} (e : Endpoint) (x : Service α) : Prop :=
  Issuing (fun q => e.issues q = true) x

section

variable {α β : Type} {t : UUID} {P : Stmt → Prop}

theorem ReadsIn.issuing {x : Service α} (h : ReadsIn t x) : Issuing P x :=
  Prog.only_mono h fun c hc => by
    cases c with
    | sql q => exact Or.inl (reads_of_readsIn hc)
    | ext x => trivial
    | _ => exact hc.elim

theorem Looks.issuing {x : Service α} (h : Looks t x) : Issuing P x := h.reads.issuing

theorem issuing_pure {a : α} : Issuing P (pure a : Service α) := Svc.only_pure

theorem issuing_fail {e : DomainError} : Issuing P (fail e : Service α) := Svc.only_throw

theorem issuing_demand {x : Except DomainError α} : Issuing P (demand x) := Svc.only_ofExcept

theorem issuing_orFail {x : Except GoError α} : Issuing P (orFail x) := Svc.only_ofExcept

theorem issuing_sql {q : Stmt} (h : P q) : Issuing P (sql q) :=
  Svc.only_bind (Svc.only_call (Or.inr h)) fun _ => Svc.only_ofExcept

theorem issuing_ext {x : Ext} : Issuing P (ext x) := Svc.only_call trivial

theorem issuing_errorf {context : String} {x : Service α} (h : Issuing P x) :
    Issuing P (errorf context x) := Svc.only_mapError h

theorem issuing_orNoRows {e : DomainError} {row : Option α} : Issuing P (orNoRows e row) := by
  cases row with
  | none => exact issuing_fail
  | some r => exact issuing_pure

theorem issuing_map {f : α → β} {x : Service α} (h : Issuing P x) : Issuing P (f <$> x) := by
  show Issuing P (x >>= fun a => pure (f a))
  exact Svc.only_bind h fun _ => issuing_pure

theorem issuing_if {c : Prop} [Decidable c] {x y : Service α} (hx : Issuing P x)
    (hy : Issuing P y) : Issuing P (if c then x else y) := by
  split
  · exact hx
  · exact hy

end

/-! ## The services -/

section

variable {actor : Actor} {P : Stmt → Prop}

theorem issuing_itemCreate {t k c : UUID} {expenseDate : Date} {amount : Int}
    {description : String}
    (hi : P (.createExpenseItem ⟨k, t, expenseDate, int32 amount, c, description⟩))
    (ht : P (.updateReportTotalAmount t k)) :
    Issuing P (ItemRepo.create t k expenseDate amount c description) :=
  Svc.only_bind (issuing_errorf (issuing_sql hi)) fun _ =>
    Svc.only_bind (issuing_errorf (issuing_sql ht)) fun _ => issuing_pure

theorem issuing_updateStatus {r : ExpenseReport} (h : P (.updateReportStatus (statusParams r))) :
    Issuing P (ReportRepo.updateStatus r) :=
  Svc.only_bind (issuing_errorf (issuing_sql h)) fun _ => issuing_orNoRows

theorem within_copyItems {report : ExpenseReport} {reference : Option UUID}
    {params : CreateReportParams} :
    Within (.createReport params) (ReportService.copyItems actor report reference) := by
  have hcopy : ∀ item, Within (.createReport params) (ReportService.copyItem actor report item) :=
    fun _ => issuing_errorf (issuing_itemCreate rfl rfl)
  cases reference with
  | none => exact issuing_pure
  | some reference =>
    exact Svc.only_bind (issuing_errorf (looks_listItems (t := actor.tenantID)).issuing)
      fun items => Svc.only_bind (Svc.only_each hcopy items)
        fun _ => issuing_errorf (looks_getReport (t := actor.tenantID)).issuing

theorem within_createReport {params : CreateReportParams} :
    Within (.createReport params) (ReportService.createReport actor params) :=
  Svc.only_bind looks_checkReference.issuing fun _ =>
    Svc.only_bind (issuing_errorf (issuing_errorf (issuing_sql rfl))) fun _ =>
      Svc.only_bind within_copyItems fun _ => looks_buildDetail.issuing

theorem within_updateReport {k : UUID} {params : UpdateReportParams} :
    Within (.updateReport k params) (ReportService.updateReport actor k params) :=
  Svc.only_bind (looks_getReport (t := actor.tenantID)).issuing fun _ =>
    Svc.only_bind issuing_demand fun _ => Svc.only_bind issuing_demand fun _ =>
      issuing_if issuing_fail <|
        Svc.only_bind (Svc.only_bind (issuing_errorf (issuing_sql rfl)) fun _ => issuing_orNoRows)
          fun _ => looks_buildDetail.issuing

theorem within_deleteReport {k : UUID} :
    Within (.deleteReport k) (ReportService.deleteReport actor k) := by
  have hsoft : Within (.deleteReport k) (ReportRepo.softDelete actor.tenantID k) :=
    Svc.only_bind (issuing_errorf (issuing_sql (decide_eq_true rfl))) fun _ =>
      Svc.only_bind (issuing_errorf (issuing_sql (decide_eq_true rfl))) fun _ =>
        issuing_errorf (issuing_sql (decide_eq_true rfl))
  exact Svc.only_bind (looks_getReport (t := actor.tenantID)).issuing fun _ =>
    Svc.only_bind issuing_demand fun _ => Svc.only_bind issuing_ext fun _ =>
      Svc.only_bind issuing_demand fun _ => hsoft

theorem within_submitReport {k : UUID} {v : Timestamp} :
    Within (.submitReport k v) (ReportService.submitReport actor k v) :=
  Svc.only_bind (looks_getReport (t := actor.tenantID)).issuing fun _ =>
    Svc.only_bind issuing_demand fun _ => issuing_if issuing_fail <|
      Svc.only_bind (issuing_errorf (looks_hasApprover (t := actor.tenantID)).issuing) fun _ =>
        Svc.only_bind (issuing_errorf (looks_listItems (t := actor.tenantID)).issuing) fun _ =>
          Svc.only_bind issuing_ext fun _ => Svc.only_bind issuing_demand fun _ =>
            Svc.only_bind (issuing_updateStatus rfl) fun _ => looks_buildDetail.issuing

theorem issuing_decideOn {k : UUID} {v : Timestamp}
    {authorize : Actor → ExpenseReport → Except DomainError Unit}
    {transition : Timestamp → ExpenseReport → Except DomainError ExpenseReport}
    (h : ∀ p, P (.updateReportStatus p)) :
    Issuing P (WorkflowService.decideOn actor k v authorize transition) :=
  Svc.only_bind (looks_getReport (t := actor.tenantID)).issuing fun _ =>
    Svc.only_bind issuing_demand fun _ => issuing_if issuing_fail <|
      Svc.only_bind issuing_ext fun _ => Svc.only_bind issuing_demand fun _ =>
        Svc.only_bind (issuing_updateStatus (h _)) fun _ =>
          (looks_buildWorkflowDetail (t := actor.tenantID)).issuing

theorem within_createItem {k : UUID} {params : CreateItemParams} :
    Within (.createItem k params) (ItemService.createItem actor k params) :=
  Svc.only_bind looks_editableReport.issuing fun _ => Svc.only_bind issuing_demand fun _ =>
    Svc.only_bind (looks_getCategory (t := actor.tenantID)).issuing fun _ =>
      Svc.only_bind
        (issuing_errorf (issuing_itemCreate (decide_eq_true rfl) (decide_eq_true rfl)))
        fun _ => looks_buildItemDTO.issuing

theorem within_updateItem {k i : UUID} {params : UpdateItemParams} :
    Within (.updateItem k i params) (ItemService.updateItem actor k i params) := by
  have hupdate : ∀ item, Within (.updateItem k i params) (ItemRepo.update item) := fun item =>
    Svc.only_bind (issuing_errorf (issuing_sql rfl)) fun _ => Svc.only_bind issuing_orNoRows fun _ =>
      Svc.only_bind (issuing_errorf (issuing_sql rfl)) fun _ => issuing_pure
  exact Svc.only_bind looks_editableReport.issuing fun _ =>
    Svc.only_bind (looks_getItem (t := actor.tenantID)).issuing fun _ =>
      Svc.only_bind issuing_demand fun _ =>
        Svc.only_bind (looks_getCategory (t := actor.tenantID)).issuing fun _ =>
          Svc.only_bind (hupdate _) fun _ => looks_buildItemDTO.issuing

theorem within_deleteItem {k i : UUID} :
    Within (.deleteItem k i) (ItemService.deleteItem actor k i) := by
  have hsoft : Within (.deleteItem k i) (ItemRepo.softDelete actor.tenantID k i) :=
    Svc.only_bind (issuing_errorf (issuing_sql agree_self)) fun _ =>
      Svc.only_bind (issuing_errorf (issuing_sql agree_self)) fun _ =>
        issuing_errorf (issuing_sql (decide_eq_true rfl))
  exact Svc.only_bind looks_editableReport.issuing fun _ =>
    Svc.only_bind (looks_getItem (t := actor.tenantID)).issuing fun _ => hsoft

theorem within_uploadAttachment {k i : UUID} {upload : FileUpload} :
    Within (.uploadAttachment k i upload) (AttachmentService.uploadAttachment actor k i upload) :=
  Svc.only_bind looks_editableReport.issuing fun _ =>
    Svc.only_bind (looks_getItem (t := actor.tenantID)).issuing fun _ =>
      issuing_if issuing_fail <| issuing_if issuing_fail <| issuing_if issuing_fail <|
        Svc.only_bind issuing_ext fun _ => Svc.only_bind issuing_ext fun _ =>
          Svc.only_bind (issuing_errorf issuing_orFail) fun _ =>
            Svc.only_bind (issuing_errorf (issuing_errorf
              (issuing_sql agree_self))) fun _ => issuing_pure

theorem within_deleteAttachment {k i a : UUID} :
    Within (.deleteAttachment k i a) (AttachmentService.deleteAttachment actor k i a) :=
  Svc.only_bind looks_editableReport.issuing fun _ =>
    Svc.only_bind (looks_getAttachment (t := actor.tenantID)).issuing fun _ =>
      issuing_errorf (issuing_sql
        ((Bool.and_eq_true _ _).mpr ⟨agree_self, decide_eq_true rfl⟩))

/-- **The service of an endpoint writes with its own statements only.** -/
theorem within_service (e : Endpoint) : Within e (e.service actor) := by
  cases e with
  | getMe => exact issuing_map reads_getMe.issuing
  | getDashboard => exact issuing_map reads_getDashboard.issuing
  | listCategories => exact issuing_map reads_listCategories.issuing
  | listMyReports params => exact issuing_map reads_listMyReports.issuing
  | createReport params => exact issuing_map within_createReport
  | getReport k => exact issuing_map reads_getReportService.issuing
  | updateReport k params => exact issuing_map within_updateReport
  | deleteReport k => exact issuing_map within_deleteReport
  | submitReport k v => exact issuing_map within_submitReport
  | createItem k params => exact issuing_map within_createItem
  | updateItem k i params => exact issuing_map within_updateItem
  | deleteItem k i => exact issuing_map within_deleteItem
  | uploadAttachment k i upload => exact issuing_map within_uploadAttachment
  | listAttachments k i => exact issuing_map reads_listAttachmentsService.issuing
  | getAttachmentDownload k i a => exact issuing_map reads_generatePresignedURL.issuing
  | getAttachmentPreview k i a => exact issuing_map reads_generatePresignedURL.issuing
  | deleteAttachment k i a => exact issuing_map within_deleteAttachment
  | listPendingReports params => exact issuing_map reads_listPendingReports.issuing
  | listProcessedReports params => exact issuing_map reads_listProcessedReports.issuing
  | approveReport k comment v => exact issuing_map (issuing_decideOn fun _ => rfl)
  | rejectReport k reason v hle => exact issuing_map (issuing_decideOn fun _ => rfl)
  | listPayableReports params => exact issuing_map reads_listPayableReports.issuing
  | markReportAsPaid k v => exact issuing_map (issuing_decideOn fun _ => rfl)
  | listAllReports params => exact issuing_map reads_listAllReports.issuing
  | listTenantMembers => exact issuing_map reads_listTenantMembers.issuing
  | getTenant => exact issuing_map reads_getTenantService.issuing

end

/-! ## The request around them -/

/-- Only a role the route lets through issues a statement, and only one of the endpoint's. -/
def RoleAsks (actor : Actor) (e : Endpoint) : Command → Prop
  | .sql q => (∃ t, q = .setCurrentTenant t) ∨
      (actor.role ∈ e.roles ∧ (server.reads q = true ∨ e.issues q = true))
  | _ => True

/-- What a call promises about the role of its actor. -/
def CallRoleAsks : Call → Trace → Command → Prop
  | .tenant actor e, _, c => RoleAsks actor e c
  | _, _, _ => True

/-- No commit has been issued. -/
def NoCommit (tr : Trace) : Prop := ∀ r, (⟨.commit, r⟩ : Event Command Command.Resp) ∉ tr

/-- A request that is answered with an error has issued no commit. -/
def ErrorDone : Call → Trace → Outcome → Prop
  | .tenant _ _, tr, a => ∀ err, a = .error err → NoCommit tr
  | _, _, _ => True

/-- The contract of a request about its role. -/
abbrev roleContract (actor : Actor) (e : Endpoint) : Contract Command Command.Resp :=
  server.contract fun _ => RoleAsks actor e

section

variable {actor : Actor} {e : Endpoint} {tr evs : Trace} {x : Service Payload}

theorem noCommit_nil : NoCommit [] := fun _ => List.not_mem_nil

theorem NoCommit.append (h : NoCommit tr) (hevs : ∀ ev ∈ evs, ev.1 ≠ Cmd.commit) :
    NoCommit (tr ++ evs) := by
  intro r hmem
  rcases List.mem_append.mp hmem with hmem | hmem
  · exact h r hmem
  · exact hevs _ hmem rfl

theorem wp_requireRole (hx : Within e x) (htr : NoCommit tr) {Q : Trace → Outcome → Prop}
    (hQ : ∀ tr a, NoCommit tr → Q tr a) :
    Prog.wp (roleContract actor e) tr (requireRole actor e.roles x).run Q := by
  unfold requireRole
  split
  · rename_i hrole
    refine Prog.wp_of_only hx (fun tr c hc => ?_) (fun evs hevs a => hQ _ a (htr.append ?_))
    · cases c with
      | sql q => exact Or.inr ⟨hrole, hc⟩
      | _ => trivial
    · intro ev hev hcommit
      have hst := hevs ev hev
      rw [hcommit] at hst
      exact hst
  · exact hQ _ _ htr

theorem wp_roles {responder : Responder} (hx : Within e x) :
    Prog.wp (roleContract actor e) []
      (tenantContext actor.tenantID responder (requireRole actor e.roles x))
      (ErrorDone (.tenant actor e)) := by
  have hrollback : ∀ (tr : Trace) (a : Outcome), NoCommit tr →
      Prog.wp (roleContract actor e) tr
        (do let _ ← issue .rollback; pure a : Program Outcome) (ErrorDone (.tenant actor e)) :=
    fun tr a htr => ⟨trivial, fun r _ err _ => htr.append (by simp)⟩
  unfold tenantContext issue
  rw [Prog.wp_bind, Prog.wp_call]
  refine ⟨trivial, fun b _ => ?_⟩
  have hb : NoCommit ([] ++ [⟨.begin, b⟩]) := noCommit_nil.append (by simp)
  cases b with
  | error err => exact hrollback _ _ hb
  | ok b =>
    refine Prog.wp_bind.mpr (Prog.wp_call.mpr ⟨Or.inl ⟨_, rfl⟩, fun r _ => ?_⟩)
    have hr : NoCommit ([] ++ [⟨.begin, .ok b⟩] ++ [⟨.sql (.setCurrentTenant actor.tenantID), r⟩]) :=
      hb.append (by simp)
    cases r with
    | error err => exact hrollback _ _ hr
    | ok u =>
      refine Prog.wp_bind.mpr (wp_requireRole hx hr fun tr r htr => ?_)
      split
      · rename_i hs
        cases r with
        | error err => exact absurd hs (Nat.not_lt.mpr (responder.refuses err))
        | ok p =>
          refine ⟨trivial, fun c _ => ?_⟩
          cases c with
          | ok c => exact fun _ hp => nomatch hp
          | error err => exact ⟨trivial, fun _ _ _ hp => nomatch hp⟩
      · exact hrollback _ _ htr

end

theorem call_roles (call : Call) :
    Prog.wp (server.contract (CallRoleAsks call)) [] (server.code call) (ErrorDone call) := by
  cases call with
  | tenant actor e => exact wp_roles (within_service e)
  | _ => exact Prog.wp_of_free (fun _ _ => trivial) fun _ _ => trivial

section

variable {C : World server → Action server → Prop} {d₀ : Database} {w : World server} {i : Nat}
  {s : Session server} {actor : Actor} {e : Endpoint}

/-- A request that writes has a role its route lets through, and the statement is its own. -/
theorem issued_of_writing (h : Reachable C (.init d₀) w) (hs : w.sessions[i]? = some s)
    (hcall : s.call = .tenant actor e) {q : Stmt} {t : Txn server} {v : Version}
    (hv : Writing w.db (w.others i) s q t v) : actor.role ∈ e.roles ∧ e.issues q = true := by
  obtain ⟨k, hp⟩ := hv.prog
  obtain ⟨_, _, hw⟩ := hv.writes
  have hask : CallRoleAsks s.call s.trace (.sql q) := h.asked (fun _ c _ => call_roles c) hs hp
  rw [hcall] at hask
  rcases hask with ⟨t, rfl⟩ | ⟨hrole, hreads | hissues⟩
  · exact absurd (show server.reads (.setCurrentTenant t) = true from rfl) (not_reads_of_writes hw)
  · exact absurd hreads (not_reads_of_writes hw)
  · exact ⟨hrole, hissues⟩

/-- **A request that writes has a role its route lets through.** -/
theorem role_of_writing (h : Reachable C (.init d₀) w) (hs : w.sessions[i]? = some s)
    (hcall : s.call = .tenant actor e) {q : Stmt} {t : Txn server} {v : Version}
    (hv : Writing w.db (w.others i) s q t v) : actor.role ∈ e.roles :=
  (issued_of_writing h hs hcall hv).1

/-- **A request that is answered with an error has committed nothing.** -/
theorem uncommitted_of_error (h : Reachable C (.init d₀) w) (hs : w.sessions[i]? = some s)
    (hcall : s.call = .tenant actor e) {err : GoError} (hp : s.prog = .ret (.error err)) :
    ∀ f ∈ w.log, f.sess ≠ i := by
  have hdone : ErrorDone s.call s.trace (.error err) := h.returned (fun _ c _ => call_roles c) hs hp
  rw [hcall] at hdone
  rintro f hf rfl
  obtain ⟨t, ht, hmem⟩ := h.committed_of_log f hf
  cases hs.symm.trans ht
  exact hdone err rfl _ hmem

end

end ExpenseSaas
