import ExpenseSaas.Contract.Files
import ExpenseSaas.Isolation.Statements
import ExpenseSaas.Workflow.Disclosure

/-!
# The grounds of a request

A request keeps within every footprint that covers it: that of its tenant, and if
it names a report in its path, that of the report. It refers to a row by its key
alone only once an answer has vouched for the row, and names an attachment only by
an identifier that was drawn for it. `grounded` is the contract, `call_grounded`
says that every request keeps it.
-/

namespace ExpenseSaas

open ReadCommitted Sql

/-- The footprint has what a request in tenant `t` may read whatever it is about. -/
structure Footprint.Covers (F : Footprint) (t : UUID) : Prop where
  tenant : F.tenant t = true
  common : F.category none = true
  category : F.category (some t) = true

/-- The footprint has all a request depends on. -/
structure Footprint.CoversRequest (F : Footprint) (actor : Actor) (e : Endpoint) : Prop
    extends F.Covers actor.tenantID where
  named : ∀ k, e.path = some k → F.owns actor.tenantID k = true
  unnamed : e.path = none → ∀ k, F.owns actor.tenantID k = true

/-- The rows an answer vouches for. -/
def Sql.Stmt.vouches : (q : Stmt) → q.Result → List RowId
  | .getReportByID _ k, r => if r.isSome then [.report k] else []
  | .createReport _, r => [.report r.reportID]
  | .getExpenseItemByID _ _ i, r => if r.isSome then [.item i] else []
  | .listExpenseItemsByReportID _ _, l => l.map fun x => .category x.categoryID
  | .getCategoryByID _ c, r => if r.isSome then [.category c] else []
  | _, _ => []

/-- An answer has vouched for the row. -/
def Vouched (tr : Trace) (key : RowId) : Prop :=
  ∃ (q : Stmt) (r : q.Result), (⟨.sql q, .ok r⟩ : Event Command Command.Resp) ∈ tr ∧ key ∈ q.vouches r

/-- What a request promises. -/
def Grounded (F : Footprint) (tr : Trace) : Command → Prop
  | .begin => tr = []
  | .sql q => q.Within F ∧ (∀ key ∈ q.needs, Vouched tr key) ∧ ∀ u, q.names = some u → Drew tr u
  | _ => True

/-- The contract. -/
abbrev grounded (F : Footprint) : Contract Command Command.Resp := server.contract (Grounded F)

/-- The command stays within the footprint, and needs no grounds. -/
def Confined (F : Footprint) : Command → Prop
  | .sql q => q.Within F ∧ q.needs = [] ∧ q.names = none
  | .ext _ => True
  | _ => False

section

variable {F : Footprint} {tr tr' : Trace} {key : RowId} {α : Type} {t k i a u c : UUID} {actor : Actor}

theorem Vouched.mono (h : Vouched tr key) (hp : tr <+: tr') : Vouched tr' key := by
  obtain ⟨q, r, hev, hk⟩ := h
  exact ⟨q, r, hp.subset hev, hk⟩

theorem vouched_append {q : Stmt} {r : q.Result} (h : key ∈ q.vouches r) :
    Vouched (tr ++ [⟨.sql q, .ok r⟩]) key :=
  ⟨q, r, List.mem_append_right _ (List.mem_singleton_self _), h⟩

/-! ## Confined services -/

theorem grounded_of_confined {c : Command} (h : Confined F c) : Grounded F tr c := by
  cases c with
  | sql q =>
    refine ⟨h.1, fun key hkey => ?_, fun u hu => ?_⟩
    · rw [h.2.1] at hkey
      cases hkey
    · rw [h.2.2] at hu
      cases hu
  | ext x => trivial
  | _ => exact h.elim

theorem grounded_stmt {q : Stmt} (h : q.Within F) (hneeds : q.needs = []) (hnames : q.names = none) :
    Grounded F tr (.sql q) := grounded_of_confined (c := .sql q) ⟨h, hneeds, hnames⟩

/-- A confined service keeps the contract. -/
theorem grounded_confined {x : Service α} {Q : Trace → α → Prop} (hx : Svc.Only (Confined F) x)
    (hQ : ∀ tr' a, tr <+: tr' → Q tr' a) : Svc.wp (grounded F) tr x Q :=
  Svc.wp_of_only hx (fun _ _ => grounded_of_confined) fun evs _ a => hQ _ a (List.prefix_append tr evs)

/-- What reads within a tenant is confined, if the footprint has all reports of the tenant. -/
theorem ReadsIn.confined {x : Service α} (h : ReadsIn t x) (hF : F.Covers t) (hown : ∀ k, F.owns t k = true) :
    Svc.Only (Confined F) x :=
  Prog.only_mono h fun c hc => by
    cases c with
    | sql q =>
      cases q <;> first
        | (cases hc; done)
        | (obtain rfl := of_decide_eq_true hc
           first
             | exact ⟨hown, rfl, rfl⟩
             | exact ⟨hown _, rfl, rfl⟩
             | exact ⟨hF.tenant, rfl, rfl⟩
             | exact ⟨⟨hF.common, hF.category⟩, rfl, rfl⟩)
        | exact ⟨trivial, rfl, rfl⟩
    | ext x => trivial
    | _ => exact hc.elim

theorem confined_sql {q : Stmt} (h : q.Within F) (hneeds : q.needs = []) (hnames : q.names = none) :
    Svc.Only (Confined F) (sql q) :=
  Svc.only_bind (Svc.only_call ⟨h, hneeds, hnames⟩) fun _ => Svc.only_ofExcept

theorem confined_errorf {context : String} {x : Service α} (h : Svc.Only (Confined F) x) :
    Svc.Only (Confined F) (errorf context x) := Svc.only_mapError h

theorem confined_orNoRows {e : DomainError} {row : Option α} : Svc.Only (Confined F) (orNoRows e row) := by
  cases row with
  | none => exact Svc.only_throw
  | some r => exact Svc.only_pure

theorem confined_getItem (h : F.owns t k = true) : Svc.Only (Confined F) (ItemRepo.getByID t k i) :=
  Svc.only_bind (confined_errorf (confined_sql h rfl rfl)) fun _ => confined_orNoRows

theorem confined_getAttachment (h : F.owns t k = true) : Svc.Only (Confined F) (AttachmentRepo.getByID t k i a) :=
  Svc.only_bind (confined_errorf (confined_sql h rfl rfl)) fun _ => confined_orNoRows

theorem confined_getCategory (hF : F.Covers t) : Svc.Only (Confined F) (CategoryRepo.getByID t c) :=
  Svc.only_bind (confined_errorf (confined_sql ⟨hF.common, hF.category⟩ rfl rfl)) fun _ => confined_orNoRows

theorem confined_getUser : Svc.Only (Confined F) (UserRepo.getByID .tx u) :=
  Svc.only_bind (confined_errorf (confined_sql trivial rfl rfl)) fun _ => confined_orNoRows

theorem confined_listItems (h : F.owns t k = true) : Svc.Only (Confined F) (ItemRepo.listByReportID t k) :=
  confined_errorf (confined_sql h rfl rfl)

theorem confined_listAttachments (h : F.owns t k = true) : Svc.Only (Confined F) (AttachmentRepo.listByItemID t k i) :=
  confined_errorf (confined_sql h rfl rfl)

theorem confined_nameOf : Svc.Only (Confined F) (nameOf u) := by
  refine Svc.only_bind (Svc.only_attempt confined_getUser) fun r => ?_
  cases r <;> exact Svc.only_pure

theorem confined_nameOfOption {u : Option UUID} : Svc.Only (Confined F) (nameOfOption u) := by
  cases u with
  | none => exact Svc.only_pure
  | some u => exact confined_nameOf

theorem confined_categoryCache (hF : F.Covers t) {cache : CategoryCache} : Svc.Only (Confined F) (cache.fill t c) := by
  unfold CategoryCache.fill
  split
  · exact Svc.only_pure
  · refine Svc.only_bind (Svc.only_attempt (confined_getCategory hF)) fun r => ?_
    cases r <;> exact Svc.only_pure

theorem confined_buildItems (hF : F.Covers actor.tenantID) (h : F.owns actor.tenantID k = true)
    (items : List ExpenseItem) {cache : CategoryCache} :
    Svc.Only (Confined F) (ReportService.buildItems actor k cache items) := by
  induction items generalizing cache with
  | nil => exact Svc.only_pure
  | cons x xs ih =>
    exact Svc.only_bind (confined_categoryCache hF) fun _ =>
      Svc.only_bind (confined_errorf (confined_listAttachments h)) fun _ => Svc.only_bind ih fun _ => Svc.only_pure

theorem confined_buildDetail (hF : F.Covers actor.tenantID) {r : ExpenseReport}
    (h : F.owns actor.tenantID r.reportID = true) : Svc.Only (Confined F) (ReportService.buildDetail actor r) :=
  Svc.only_bind (confined_errorf confined_getUser) fun _ =>
    Svc.only_bind confined_nameOfOption fun _ => Svc.only_bind confined_nameOfOption fun _ =>
      Svc.only_bind confined_nameOfOption fun _ => Svc.only_bind confined_nameOfOption fun _ =>
        Svc.only_bind (confined_errorf (confined_listItems h)) fun _ =>
          Svc.only_bind (confined_buildItems hF h _) fun _ => Svc.only_pure

theorem confined_buildWorkflowDetail {r : ExpenseReport} :
    Svc.Only (Confined F) (WorkflowService.buildWorkflowDetail r) :=
  Svc.only_bind (confined_errorf confined_getUser) fun _ =>
    Svc.only_bind confined_nameOfOption fun _ => Svc.only_bind confined_nameOfOption fun _ =>
      Svc.only_bind confined_nameOfOption fun _ => Svc.only_bind confined_nameOfOption fun _ => Svc.only_pure

theorem confined_buildItemDTO (hF : F.Covers actor.tenantID) {x : ExpenseItem}
    (h : F.owns actor.tenantID x.reportID = true) : Svc.Only (Confined F) (ItemService.buildItemDTO actor x) :=
  Svc.only_bind (confined_errorf (confined_getCategory hF)) fun _ =>
    Svc.only_bind (confined_errorf (confined_listAttachments h)) fun _ => Svc.only_pure

theorem confined_softDeleteReport (h : F.owns t k = true) : Svc.Only (Confined F) (ReportRepo.softDelete t k) :=
  Svc.only_bind (confined_errorf (confined_sql h rfl rfl)) fun _ =>
    Svc.only_bind (confined_errorf (confined_sql h rfl rfl)) fun _ => confined_errorf (confined_sql h rfl rfl)

theorem confined_softDeleteItem (h : F.owns t k = true) : Svc.Only (Confined F) (ItemRepo.softDelete t k i) :=
  Svc.only_bind (confined_errorf (confined_sql h rfl rfl)) fun _ =>
    Svc.only_bind (confined_errorf (confined_sql h rfl rfl)) fun _ => confined_errorf (confined_sql h rfl rfl)

/-! ## Statements whose answers matter -/

theorem grounded_getReport (h : F.owns t k = true) {Q : Trace → ExpenseReport → Prop}
    (hQ : ∀ tr' r, tr <+: tr' → r.tenantID = t → r.reportID = k → Vouched tr' (.report k) → Q tr' r) :
    Svc.wp (grounded F) tr (ReportRepo.getByID t k) Q := by
  unfold ReportRepo.getByID
  simp only [Svc.wp_bind, wp_errorf, wp_orNoRows]
  refine wp_sql (grounded_stmt h rfl rfl) fun row hrow r hr => ?_
  subst hr
  obtain ⟨d, clock, o, hd⟩ := hrow
  have hsel := (reportRows.mem_of_first (Except.ok.inj hd)).2
  simp only [reportIs, Bool.and_eq_true, decide_eq_true_eq] at hsel
  exact hQ _ r (List.prefix_append _ _) hsel.1.1 hsel.1.2 (vouched_append List.mem_cons_self)

theorem grounded_findItem (h : F.owns t k = true) {Q : Trace → ExpenseItem → Prop}
    (hQ : ∀ tr' x, tr <+: tr' → x.tenantID = t → x.reportID = k → Vouched tr' (.item i) → Q tr' x) :
    Svc.wp (grounded F) tr (ItemRepo.getByID t k i) Q := by
  unfold ItemRepo.getByID
  simp only [Svc.wp_bind, wp_errorf, wp_orNoRows]
  refine wp_sql (grounded_stmt h rfl rfl) fun row hrow x hx => ?_
  subst hx
  obtain ⟨d, clock, o, hd⟩ := hrow
  have hsel := (itemRows.mem_of_first (Except.ok.inj hd)).2
  simp only [itemOf, Bool.and_eq_true, decide_eq_true_eq] at hsel
  exact hQ _ x (List.prefix_append _ _) hsel.1.1.1 hsel.1.1.2 (vouched_append List.mem_cons_self)

theorem grounded_findCategory (hF : F.Covers t) {Q : Trace → Category → Prop}
    (hQ : ∀ tr' x, tr <+: tr' → Vouched tr' (.category c) → Q tr' x) :
    Svc.wp (grounded F) tr (CategoryRepo.getByID t c) Q := by
  unfold CategoryRepo.getByID
  simp only [Svc.wp_bind, wp_errorf, wp_orNoRows]
  refine wp_sql (grounded_stmt ⟨hF.common, hF.category⟩ rfl rfl) fun row _ x hx => ?_
  subst hx
  exact hQ _ x (List.prefix_append _ _) (vouched_append List.mem_cons_self)

theorem grounded_listItems (h : F.owns t k = true) {Q : Trace → List ExpenseItem → Prop}
    (hQ : ∀ tr' l, tr <+: tr' → (∀ x ∈ l, Vouched tr' (.category x.categoryID)) → Q tr' l) :
    Svc.wp (grounded F) tr (ItemRepo.listByReportID t k) Q := by
  unfold ItemRepo.listByReportID
  rw [wp_errorf]
  refine wp_sql (grounded_stmt h rfl rfl) fun l _ => hQ _ l (List.prefix_append _ _) fun x hx => ?_
  exact vouched_append (List.mem_map_of_mem hx)

theorem grounded_update {r : ExpenseReport} (h : F.owns r.tenantID r.reportID = true)
    {Q : Trace → ExpenseReport → Prop}
    (hQ : ∀ tr' r', tr <+: tr' → r'.reportID = r.reportID → Q tr' r') :
    Svc.wp (grounded F) tr (ReportRepo.update r) Q := by
  unfold ReportRepo.update
  simp only [Svc.wp_bind, wp_errorf, wp_orNoRows]
  refine wp_sql (grounded_stmt h rfl rfl) fun row hrow r' hr' => hQ _ r' (List.prefix_append _ _) ?_
  subst hr'
  exact reportID_of_updated hrow

theorem grounded_updateStatus {r : ExpenseReport} (h : F.owns r.tenantID r.reportID = true)
    {Q : Trace → ExpenseReport → Prop}
    (hQ : ∀ tr' r', tr <+: tr' → r'.reportID = r.reportID → Q tr' r') :
    Svc.wp (grounded F) tr (ReportRepo.updateStatus r) Q := by
  unfold ReportRepo.updateStatus
  simp only [Svc.wp_bind, wp_errorf, wp_orNoRows]
  refine wp_sql (grounded_stmt h rfl rfl) fun row hrow r' hr' => hQ _ r' (List.prefix_append _ _) ?_
  subst hr'
  exact reportID_of_statusUpdated hrow

/-- An item is created in a report and a category that are known. -/
theorem grounded_itemCreate (hF : F.Covers t) (h : F.owns t k = true) {expenseDate : Date} {amount : Int}
    {description : String} (hreport : Vouched tr (.report k)) (hcategory : Vouched tr (.category c))
    {Q : Trace → ExpenseItem → Prop} (hQ : ∀ tr' x, tr <+: tr' → x.reportID = k → Q tr' x) :
    Svc.wp (grounded F) tr (ItemRepo.create t k expenseDate amount c description) Q := by
  unfold ItemRepo.create
  simp only [Svc.wp_bind, wp_errorf, Svc.wp_pure]
  refine wp_sql ⟨⟨hF.tenant, h⟩, ?_, fun u hu => by cases hu⟩ fun x hx => ?_
  · exact List.forall_mem_cons.mpr ⟨hreport, List.forall_mem_singleton.mpr hcategory⟩
  · refine wp_sql (grounded_stmt h rfl rfl) fun _ _ => hQ _ x ?_ ?_
    · exact (List.prefix_append _ _).trans (List.prefix_append _ _)
    · obtain ⟨d, clock, o, v, hrow, rfl⟩ := hx
      obtain ⟨_, _, hmade⟩ := itemRow_ok (Relation.made_of_inserted (T := itemRows) hrow)
      exact congrArg ExpenseItem.reportID hmade

/-! ## Requests about one report -/

theorem grounded_editableReport (h : F.owns actor.tenantID k = true) {Q : Trace → ExpenseReport → Prop}
    (hQ : ∀ tr' r, tr <+: tr' → Vouched tr' (.report k) → Q tr' r) :
    Svc.wp (grounded F) tr (editableReport actor k) Q := by
  unfold editableReport
  simp only [Svc.wp_bind, wp_demand, Svc.wp_pure]
  exact grounded_getReport h fun tr' r hp _ _ hv _ _ _ _ => hQ tr' r hp hv

theorem grounded_getReportService (hF : F.Covers actor.tenantID) (h : F.owns actor.tenantID k = true) :
    Svc.wp (grounded F) tr (ReportService.getReport actor k) fun _ _ => True := by
  unfold ReportService.getReport
  simp only [Svc.wp_bind, wp_demand]
  refine grounded_getReport h fun tr₁ r _ _ hk _ _ _ => ?_
  subst hk
  exact grounded_confined (confined_buildDetail hF h) fun _ _ _ => trivial

theorem grounded_updateReport (hF : F.Covers actor.tenantID) (h : F.owns actor.tenantID k = true)
    {params : UpdateReportParams} :
    Svc.wp (grounded F) tr (ReportService.updateReport actor k params) fun _ _ => True := by
  unfold ReportService.updateReport
  simp only [Svc.wp_bind, wp_demand]
  refine grounded_getReport h fun tr₁ r _ ht hk _ _ _ _ _ => ?_
  subst hk
  split
  · exact wp_fail.mpr trivial
  · rw [Svc.wp_bind]
    refine grounded_update (by rw [ht]; exact h) fun tr₂ r' _ hk' => ?_
    exact grounded_confined (confined_buildDetail hF (by rw [hk']; exact h)) fun _ _ _ => trivial

theorem grounded_submitReport (hF : F.Covers actor.tenantID) (h : F.owns actor.tenantID k = true) {v : Timestamp} :
    Svc.wp (grounded F) tr (ReportService.submitReport actor k v) fun _ _ => True := by
  unfold ReportService.submitReport
  simp only [Svc.wp_bind, wp_demand]
  refine grounded_getReport h fun tr₁ r _ ht hk _ _ _ => ?_
  subst hk
  split
  · exact wp_fail.mpr trivial
  · simp only [Svc.wp_bind, wp_demand, wp_errorf]
    refine grounded_confined (confined_errorf (confined_sql hF.tenant rfl rfl)) fun tr₂ approver _ => ?_
    refine grounded_confined (confined_listItems h) fun tr₃ items _ => ?_
    refine grounded_confined (Svc.only_call trivial) fun tr₄ now _ r' hr' => ?_
    obtain ⟨_, _, _, rfl⟩ := submit_ok hr'
    refine grounded_updateStatus (by rw [show r.tenantID = _ from ht]; exact h) fun tr₅ r'' _ hk'' => ?_
    exact grounded_confined (confined_buildDetail hF (by rw [hk'']; exact h)) fun _ _ _ => trivial

theorem grounded_decideOn (h : F.owns actor.tenantID k = true) {v : Timestamp}
    {authorize : Actor → ExpenseReport → Except DomainError Unit}
    {transition : Timestamp → ExpenseReport → Except DomainError ExpenseReport}
    (hT : ∀ now r r', transition now r = .ok r' → r'.tenantID = r.tenantID ∧ r'.reportID = r.reportID) :
    Svc.wp (grounded F) tr (WorkflowService.decideOn actor k v authorize transition) fun _ _ => True := by
  unfold WorkflowService.decideOn
  simp only [Svc.wp_bind, wp_demand]
  refine grounded_getReport h fun tr₁ r _ ht hk _ _ _ => ?_
  split
  · exact wp_fail.mpr trivial
  · simp only [Svc.wp_bind, wp_demand]
    refine grounded_confined (Svc.only_call trivial) fun tr₂ now _ r' hr' => ?_
    obtain ⟨ht', hk'⟩ := hT now r r' hr'
    refine grounded_updateStatus (by rw [ht', hk', ht, hk]; exact h) fun tr₃ r'' _ _ => ?_
    exact grounded_confined confined_buildWorkflowDetail fun _ _ _ => trivial

theorem grounded_deleteReport (h : F.owns actor.tenantID k = true) :
    Svc.wp (grounded F) tr (ReportService.deleteReport actor k) fun _ _ => True := by
  unfold ReportService.deleteReport
  simp only [Svc.wp_bind, wp_demand]
  refine grounded_getReport h fun tr₁ r _ _ _ _ _ _ => ?_
  refine grounded_confined (Svc.only_call trivial) fun tr₂ now _ _ _ => ?_
  exact grounded_confined (confined_softDeleteReport h) fun _ _ _ => trivial

theorem grounded_createItem (hF : F.Covers actor.tenantID) (h : F.owns actor.tenantID k = true)
    {params : CreateItemParams} :
    Svc.wp (grounded F) tr (ItemService.createItem actor k params) fun _ _ => True := by
  unfold ItemService.createItem
  simp only [Svc.wp_bind, wp_demand, wp_errorf]
  refine grounded_editableReport h fun tr₁ r _ hreport _ _ => ?_
  refine grounded_findCategory hF fun tr₂ cat hp hcategory => ?_
  refine grounded_itemCreate hF h (hreport.mono hp) hcategory fun tr₃ x _ hk => ?_
  exact grounded_confined (confined_buildItemDTO hF (by rw [hk]; exact h)) fun _ _ _ => trivial

theorem grounded_updateItem (hF : F.Covers actor.tenantID) (h : F.owns actor.tenantID k = true)
    {params : UpdateItemParams} :
    Svc.wp (grounded F) tr (ItemService.updateItem actor k i params) fun _ _ => True := by
  unfold ItemService.updateItem ItemRepo.update
  simp only [Svc.wp_bind, wp_demand, wp_errorf, wp_orNoRows, Svc.wp_pure]
  refine grounded_editableReport h fun tr₁ r _ _ => ?_
  refine grounded_findItem h fun tr₂ x _ ht hk _ _ _ => ?_
  refine grounded_findCategory hF fun tr₃ cat _ hcategory => ?_
  have hown : F.owns x.tenantID x.reportID = true := by rw [ht, hk]; exact h
  refine wp_sql ⟨hown, List.forall_mem_singleton.mpr hcategory, fun u hu => by cases hu⟩ fun row hrow y hy => ?_
  subst hy
  -- the row the update answers is the one it was given
  obtain ⟨ws, hws, hall⟩ := hrow
  obtain ⟨_, _, _, z, hz, hset⟩ := Relation.made_of_applied (T := itemRows) hall (List.mem_of_mem_head? hws.symm)
  obtain ⟨_, rfl⟩ := setItem_ok hset
  simp only [itemOf, Bool.and_eq_true, decide_eq_true_eq] at hz
  refine wp_sql (grounded_stmt ?_ rfl rfl) fun _ _ => ?_
  · show F.owns z.tenantID z.reportID = true
    rw [hz.1.1.1.1, hz.1.1.1.2]
    exact hown
  · refine grounded_confined (confined_buildItemDTO hF ?_) fun _ _ _ => trivial
    show F.owns actor.tenantID z.reportID = true
    rw [hz.1.1.1.2, hk]
    exact h

theorem grounded_deleteItem (h : F.owns actor.tenantID k = true) :
    Svc.wp (grounded F) tr (ItemService.deleteItem actor k i) fun _ _ => True := by
  unfold ItemService.deleteItem
  simp only [Svc.wp_bind]
  refine grounded_editableReport h fun tr₁ r _ _ => ?_
  refine grounded_confined (confined_getItem h) fun tr₂ x _ => ?_
  exact grounded_confined (confined_softDeleteItem h) fun _ _ _ => trivial

theorem grounded_uploadAttachment (hF : F.Covers actor.tenantID) (h : F.owns actor.tenantID k = true)
    {upload : FileUpload} :
    Svc.wp (grounded F) tr (AttachmentService.uploadAttachment actor k i upload) fun _ _ => True := by
  unfold AttachmentService.uploadAttachment AttachmentRepo.create
  simp only [Svc.wp_bind]
  refine grounded_editableReport h fun tr₁ r _ hreport => ?_
  refine grounded_findItem h fun tr₂ x h₂ _ _ hitem => ?_
  split
  · exact wp_fail.mpr trivial
  · split
    · exact wp_fail.mpr trivial
    · split
      · exact wp_fail.mpr trivial
      · simp only [Svc.wp_bind, wp_errorf, wp_orFail, Svc.wp_pure]
        refine wp_ext trivial fun u _ => ?_
        refine grounded_confined (Svc.only_call trivial) fun tr₄ stored h₄ _ _ => ?_
        have hdrew : Drew tr₄ u := h₄.subset (List.mem_append_right _ (List.mem_singleton_self _))
        have hp : tr₂ <+: tr₄ := (List.prefix_append _ _).trans h₄
        refine wp_sql ⟨⟨hF.tenant, h⟩, ?_, fun u' hu => ?_⟩ fun _ _ => trivial
        · exact List.forall_mem_cons.mpr ⟨hitem.mono hp, List.forall_mem_singleton.mpr (hreport.mono (h₂.trans hp))⟩
        · cases hu
          exact hdrew

theorem grounded_listAttachments (h : F.owns actor.tenantID k = true) :
    Svc.wp (grounded F) tr (AttachmentService.listAttachments actor k i) fun _ _ => True := by
  unfold AttachmentService.listAttachments
  simp only [Svc.wp_bind, wp_demand, wp_errorf, Svc.wp_pure]
  refine grounded_getReport h fun tr₁ r _ _ _ _ _ _ => ?_
  refine grounded_confined (confined_getItem h) fun tr₂ x _ => ?_
  exact grounded_confined (confined_listAttachments h) fun _ _ _ => trivial

theorem grounded_generatePresignedURL (h : F.owns actor.tenantID k = true) {disposition : String} :
    Svc.wp (grounded F) tr (AttachmentService.generatePresignedURL actor k i a disposition) fun _ _ => True := by
  unfold AttachmentService.generatePresignedURL
  simp only [Svc.wp_bind, wp_demand, wp_errorf, wp_orFail, Svc.wp_pure]
  refine grounded_getReport h fun tr₁ r _ _ _ _ _ _ => ?_
  refine grounded_confined (confined_getAttachment h) fun tr₂ x _ => ?_
  exact grounded_confined (Svc.only_call trivial) fun _ _ _ _ _ => trivial

theorem grounded_deleteAttachment (h : F.owns actor.tenantID k = true) :
    Svc.wp (grounded F) tr (AttachmentService.deleteAttachment actor k i a) fun _ _ => True := by
  unfold AttachmentService.deleteAttachment AttachmentRepo.softDelete
  simp only [Svc.wp_bind, wp_errorf]
  refine grounded_editableReport h fun tr₁ r _ _ => ?_
  refine grounded_confined (confined_getAttachment h) fun tr₂ x _ => ?_
  exact grounded_confined (confined_sql h rfl rfl) fun _ _ _ => trivial

/-! ## A new report -/

theorem grounded_checkReference (hown : ∀ k, F.owns actor.tenantID k = true) {reference : Option UUID}
    {Q : Trace → Unit → Prop}
    (hQ : ∀ tr', tr <+: tr' → (∀ k, reference = some k → Vouched tr' (.report k)) → Q tr' ()) :
    Svc.wp (grounded F) tr (ReportService.checkReference actor reference) Q := by
  cases reference with
  | none => exact Svc.wp_pure.mpr (hQ tr List.prefix_rfl fun k hk => by cases hk)
  | some reference =>
    unfold ReportService.checkReference
    rw [Svc.wp_bind]
    refine grounded_getReport (hown _) fun tr₁ r hp _ _ hv => ?_
    split
    · exact wp_fail.mpr trivial
    · split
      · exact wp_fail.mpr trivial
      · refine Svc.wp_pure.mpr (hQ tr₁ hp fun k hk => ?_)
        cases hk
        exact hv

/-- The items are copied from one report that is known into another. -/
theorem grounded_copyItems (hF : F.Covers actor.tenantID) (hown : ∀ k, F.owns actor.tenantID k = true)
    {r : ExpenseReport} {reference : Option UUID} (hr : Vouched tr (.report r.reportID)) :
    Svc.wp (grounded F) tr (ReportService.copyItems actor r reference) fun _ _ => True := by
  cases reference with
  | none => exact Svc.wp_pure.mpr trivial
  | some reference =>
    unfold ReportService.copyItems
    simp only [Svc.wp_bind, wp_errorf]
    refine grounded_listItems (hown _) fun tr₁ items h₁ hitems => ?_
    have hcopied : Svc.wp (grounded F) tr₁ (Svc.each (ReportService.copyItem actor r) items)
        fun tr' _ => tr₁ <+: tr' := by
      refine Svc.wp_each (I := fun tr' => tr₁ <+: tr') items (fun x hx tr' hp => ?_) List.prefix_rfl
      unfold ReportService.copyItem
      rw [wp_errorf]
      exact grounded_itemCreate hF (hown _) (hr.mono (h₁.trans hp)) ((hitems x hx).mono hp)
        fun tr'' _ hp' _ => hp.trans hp'
    refine Svc.wp_mono hcopied fun tr₂ _ _ => ?_
    exact grounded_getReport (hown _) fun _ _ _ _ _ _ => trivial

theorem grounded_createReport (hF : F.Covers actor.tenantID) (hown : ∀ k, F.owns actor.tenantID k = true)
    {params : CreateReportParams} :
    Svc.wp (grounded F) tr (ReportService.createReport actor params) fun _ _ => True := by
  unfold ReportService.createReport ReportRepo.create
  simp only [Svc.wp_bind, wp_errorf]
  refine grounded_checkReference hown fun tr₁ _ href => ?_
  refine wp_sql ⟨⟨hF.tenant, hown⟩, fun key hkey => ?_, fun u hu => by cases hu⟩ fun r _ => ?_
  · obtain ⟨k, hk, rfl⟩ := List.mem_map.mp hkey
    exact href k (Option.mem_toList.mp hk)
  · refine Svc.wp_mono (grounded_copyItems hF hown (vouched_append List.mem_cons_self)) fun tr₂ r' _ => ?_
    exact grounded_confined (confined_buildDetail hF (hown _)) fun _ _ _ => trivial

/-! ## Every request -/

/-- What only reads keeps the contract if the footprint has all reports of the tenant. -/
theorem grounded_reads {x : Service α} (hx : ReadsIn t x) (hF : F.Covers t) (hown : ∀ k, F.owns t k = true) :
    Svc.wp (grounded F) tr x fun _ _ => True := grounded_confined (hx.confined hF hown) fun _ _ _ => trivial

theorem grounded_service {e : Endpoint} (hF : F.CoversRequest actor e) :
    Svc.wp (grounded F) tr (e.service actor) fun _ _ => True := by
  have hmap : ∀ {β : Type} {x : Service β} {f : β → Payload}, Svc.wp (grounded F) tr x (fun _ _ => True) →
      Svc.wp (grounded F) tr (f <$> x) fun _ _ => True := fun hx =>
    Svc.wp_bind.mpr (Svc.wp_mono hx fun _ _ _ => Svc.wp_pure.mpr trivial)
  have hC := hF.toCovers
  cases e with
  | getMe => exact hmap (grounded_reads reads_getMe hC (hF.unnamed rfl))
  | getDashboard => exact hmap (grounded_reads reads_getDashboard hC (hF.unnamed rfl))
  | listCategories => exact hmap (grounded_reads reads_listCategories hC (hF.unnamed rfl))
  | listMyReports params => exact hmap (grounded_reads reads_listMyReports hC (hF.unnamed rfl))
  | createReport params => exact hmap (grounded_createReport hC (hF.unnamed rfl))
  | getReport k => exact hmap (grounded_getReportService hC (hF.named k rfl))
  | updateReport k params => exact hmap (grounded_updateReport hC (hF.named k rfl))
  | deleteReport k => exact hmap (grounded_deleteReport (hF.named k rfl))
  | submitReport k v => exact hmap (grounded_submitReport hC (hF.named k rfl))
  | createItem k params => exact hmap (grounded_createItem hC (hF.named k rfl))
  | updateItem k i params => exact hmap (grounded_updateItem hC (hF.named k rfl))
  | deleteItem k i => exact hmap (grounded_deleteItem (hF.named k rfl))
  | uploadAttachment k i upload => exact hmap (grounded_uploadAttachment hC (hF.named k rfl))
  | listAttachments k i => exact hmap (grounded_listAttachments (hF.named k rfl))
  | getAttachmentDownload k i a => exact hmap (grounded_generatePresignedURL (hF.named k rfl))
  | getAttachmentPreview k i a => exact hmap (grounded_generatePresignedURL (hF.named k rfl))
  | deleteAttachment k i a => exact hmap (grounded_deleteAttachment (hF.named k rfl))
  | listPendingReports params => exact hmap (grounded_reads reads_listPendingReports hC (hF.unnamed rfl))
  | listProcessedReports params => exact hmap (grounded_reads reads_listProcessedReports hC (hF.unnamed rfl))
  | approveReport k comment v =>
    refine hmap (grounded_decideOn (hF.named k rfl) fun now r r' h => ?_)
    obtain ⟨_, _, rfl⟩ := approve_ok h
    exact ⟨rfl, rfl⟩
  | rejectReport k reason v hle =>
    refine hmap (grounded_decideOn (hF.named k rfl) fun now r r' h => ?_)
    obtain ⟨_, _, _, rfl⟩ := reject_ok h
    exact ⟨rfl, rfl⟩
  | listPayableReports params => exact hmap (grounded_reads reads_listPayableReports hC (hF.unnamed rfl))
  | markReportAsPaid k v =>
    refine hmap (grounded_decideOn (hF.named k rfl) fun now r r' h => ?_)
    obtain ⟨_, _, rfl⟩ := markAsPaid_ok h
    exact ⟨rfl, rfl⟩
  | listAllReports params => exact hmap (grounded_reads reads_listAllReports hC (hF.unnamed rfl))
  | listTenantMembers => exact hmap (grounded_reads reads_listTenantMembers hC (hF.unnamed rfl))
  | getTenant => exact hmap (grounded_reads reads_getTenantService hC (hF.unnamed rfl))

/-- **Every request keeps within a footprint that covers it**, on good grounds. -/
theorem call_grounded {e : Endpoint} (hF : F.CoversRequest actor e) :
    Prog.wp (grounded F) [] (server.code (.tenant actor e)) fun _ _ => True := by
  have hback : ∀ (tr : Trace) (o : Outcome), Prog.wp (grounded F) tr
      (do let _ ← issue .rollback; pure o : Program Outcome) fun _ _ => True :=
    fun tr o => ⟨trivial, fun _ _ => trivial⟩
  show Prog.wp (grounded F) [] (tenantContext _ _ _) _
  unfold tenantContext issue
  rw [Prog.wp_bind, Prog.wp_call]
  refine ⟨rfl, fun b _ => ?_⟩
  cases b with
  | error err => exact hback _ _
  | ok b =>
    refine Prog.wp_bind.mpr (Prog.wp_call.mpr ⟨grounded_stmt trivial rfl rfl, fun r _ => ?_⟩)
    cases r with
    | error err => exact hback _ _
    | ok u =>
      have hservice : ∀ tr, Svc.wp (grounded F) tr (requireRole actor e.roles (e.service actor))
          fun _ _ => True := by
        intro tr
        unfold requireRole
        split
        · exact grounded_service hF
        · exact wp_fail.mpr trivial
      refine Prog.wp_bind.mpr (Prog.wp_mono (hservice _) fun tr r _ => ?_)
      split
      · refine ⟨trivial, fun c _ => ?_⟩
        cases c with
        | ok c => trivial
        | error err => exact hback _ _
      · exact hback _ _

end

end ExpenseSaas
