import Mathlib.Algebra.Order.BigOperators.Group.List
import ExpenseSaas.Alone.Values
import ExpenseSaas.Contract.Files

/-!
# Requests that the tables refuse

Seven requests write values that a client has chosen. Each of them is checked by
its handler, then by its service (`Endpoint.Admitted`), and then once more by
the tables it writes to. `Endpoint.Fits` is what the tables ask of a request
that has come so far, and `accepted_iff_fits` that nothing less will do: the
request runs without an error of a column or a `CHECK` exactly when it fits.

What the handlers leave out is the length of a title, of a comment on an
approval and of a file name, the zero byte in any text, and the size of an
amount and of the sum it is added to.
-/

namespace ExpenseSaas

open ReadCommitted Sql

/-! ## Admitted, and fit -/

/-- The owner's draft under this key. -/
def DraftOf (d : Database) (actor : Actor) (k : UUID) : Prop :=
  ∃ r, reportRows.first (reportIs actor.tenantID k) d = some r ∧ r.userID = actor.userID ∧ r.status = .draft

/-- The category can be chosen. -/
def Choosable (d : Database) (t c : UUID) : Prop :=
  ∃ x, categoryRows.first
    (fun x => x.categoryID = c && x.isActive && (x.tenantID = some t || x.tenantID = none)) d = some x

/-- The item under this key. -/
def ItemAt (d : Database) (t k i : UUID) (x : ExpenseItem) : Prop :=
  itemRows.first (fun x => itemOf t k x && x.itemID = i) d = some x

/-- The report waits for a decision that the actor may take, and the client has seen it as it is. -/
def Awaiting (d : Database) (actor : Actor) (k : UUID) (v : Timestamp) : Prop :=
  ∃ r, reportRows.first (reportIs actor.tenantID k) d = some r ∧ r.userID ≠ actor.userID ∧
    r.status = .submitted ∧ r.updatedAt = v

/-- The request passes the checks of its service; those of the handler are in its parameters. -/
def Endpoint.Admitted (d : Database) (actor : Actor) : Endpoint → Prop
  | .createReport params => ∀ k ∈ params.referenceReportID,
      ∃ r, reportRows.first (reportIs actor.tenantID k) d = some r ∧ r.userID = actor.userID ∧
        r.status = .rejected
  | .updateReport k params =>
      ∃ r, reportRows.first (reportIs actor.tenantID k) d = some r ∧ r.userID = actor.userID ∧
        r.status = .draft ∧ r.updatedAt = params.updatedAt
  | .createItem k params => DraftOf d actor k ∧ Choosable d actor.tenantID params.categoryID
  | .updateItem k i params => DraftOf d actor k ∧ Choosable d actor.tenantID params.categoryID ∧
      ∃ x, ItemAt d actor.tenantID k i x ∧ x.updatedAt = params.updatedAt
  | .uploadAttachment k i upload => DraftOf d actor k ∧ (∃ x, ItemAt d actor.tenantID k i x) ∧
      detectMimeType upload.content = upload.mimeType
  | .approveReport k _ v => Awaiting d actor k v
  | .rejectReport k reason v _ => Awaiting d actor k v ∧ trimSpace reason ≠ ""
  | _ => False

/-- What the tables ask of it. -/
def Endpoint.Fits (d : Database) (actor : Actor) : Endpoint → Prop
  | .createReport params => Storable 200 params.title ∧
      ∀ k ∈ params.referenceReportID, sumOfItems d actor.tenantID k < 2 ^ 31
  | .updateReport _ params => Storable 200 params.title
  | .createItem k params => Storable 500 params.description ∧ 0 < int32 params.amount ∧
      sumOfItems d actor.tenantID k + int32 params.amount < 2 ^ 31
  | .updateItem k i params => Storable 500 params.description ∧ 0 < int32 params.amount ∧
      sumOfItems d actor.tenantID k - ((d.items.find i).map ExpenseItem.amount).getD 0 +
        int32 params.amount < 2 ^ 31
  | .uploadAttachment _ _ upload => StorableBytes 255 upload.fileName
  | .approveReport _ comment _ => StorableNull 1000 comment
  | .rejectReport _ reason _ _ => Storable 1000 reason
  | _ => True

/-- The rows are such as their tables let in, and name rows that are there. -/
structure Fitted (d : Database) : Prop where
  amount : ∀ k x, d.items.find k = some x → 0 < x.amount ∧ x.amount < 2 ^ 31
  description : ∀ k x, d.items.find k = some x → Storable 500 x.description
  category : ∀ k x, d.items.find k = some x → (d.categories.find x.categoryID).isSome = true
  report : ∀ k x, d.items.find k = some x → (d.reports.find x.reportID).isSome = true
  period : ∀ k r, d.reports.find k = some r → r.periodStart.le r.periodEnd = true
  total : ∀ k r, d.reports.find k = some r → 0 ≤ r.totalAmount
  comment : ∀ k r, d.reports.find k = some r → StorableNull 1000 r.approvalComment
  reason : ∀ k r, d.reports.find k = some r → StorableNull 1000 r.rejectionReason
  bits : ∀ k r, d.reports.find k = some r → k < 2 ^ 128

/-- Surroundings in which nothing fails and identifiers are new; as far as a request can get, they have 128 bits. -/
structure Smooth (d : Database) (env : Nat → Oracle) : Prop where
  works : ∀ n, (env n).failure = none
  bits : ∀ n, n < 2 ^ 64 → (env n).uuid < 2 ^ 128
  once : ∀ m n, (env m).uuid = (env n).uuid → m = n
  report : ∀ n, d.reports.find (env n).uuid = none
  item : ∀ n, d.items.find (env n).uuid = none

/-- A user of the tenant. -/
structure MemberOf (d : Database) (actor : Actor) : Prop where
  tenant : (d.tenants.find actor.tenantID).isSome = true
  user : (d.users.find actor.userID).isSome = true
  bits : actor.tenantID < 2 ^ 128

/-- The call runs alone without an error of a column or a `CHECK`. -/
def Accepted (env : Nat → Oracle) (d : Database) (c : Call) : Prop :=
  Spared (E := server) SqlError.ofValue env (server.code c) (.init d)

section

variable {env : Nat → Oracle} {db d : Database} {clock : Oracle} {n : Nat} {actor : Actor} {e : Endpoint}
  {k : UUID}

/-- **A request is accepted** when its service is, in a transaction of its own. -/
theorem accepted_tenant (hrole : actor.role ∈ e.roles) :
    Accepted env d (.tenant actor e) ↔ NoValueFails env (e.service actor) (handling env d) := by
  have hrollback : ∀ {s : Solo server} {r : Outcome}, Spared (E := server) SqlError.ofValue env
      (do let _ : Except SqlError Unit ← issue .rollback; pure r) s := by
    intro s r
    exact (spared_exec (E := server)).mpr ⟨rfl, spared_ret.mpr trivial⟩
  unfold Accepted
  show Spared (E := server) SqlError.ofValue env (tenantContext actor.tenantID e.responder
    (requireRole actor e.roles (e.service actor))) (.init d) ↔ _
  unfold requireRole
  rw [if_pos hrole]
  show Spared (E := server) SqlError.ofValue env (.exec .begin _) (.init d) ↔ _
  rw [spared_exec]
  refine (and_iff_right rfl).trans ?_
  show Spared (E := server) SqlError.ofValue env (.exec (.sql (.setCurrentTenant actor.tenantID)) _) _ ↔ _
  rw [spared_exec]
  refine (and_iff_right rfl).trans ?_
  show Spared (E := server) SqlError.ofValue env ((e.service actor).run >>= _) (handling env d) ↔ _
  rw [spared_bind]
  refine ⟨And.left, fun h => ⟨h, ?_⟩⟩
  split
  · refine (spared_exec (E := server)).mpr ⟨rfl, ?_⟩
    generalize Solo.step (E := server) env _ .commit = x
    obtain ⟨c, s⟩ := x
    cases c with
    | ok b => exact spared_ret.mpr trivial
    | error err => exact hrollback
  · exact hrollback

theorem noValueFails_demand {α β : Type} {x : Except DomainError α} {a : α} {f : α → Service β}
    {s : Solo server} (hx : x = .ok a) :
    NoValueFails env (demand x >>= f) s ↔ NoValueFails env (f a) s :=
  spared_after (E := server) (spared_ofExcept.mpr trivial) (gives_demand.mpr ⟨hx, rfl⟩)

theorem inside_of_row {R : Type} {x : Service (Option R)} {context : String} {err : DomainError} {r : R}
    {s' : Solo server}
    (hx : ∀ o s', GivesAlone env x (.inside db clock d n) o s' →
      ∃ d', s' = .inside db clock d' (n + 1))
    (h : GivesAlone env (do let row ← errorf context x; orNoRows err row) (.inside db clock d n) r s') :
    ∃ d', s' = .inside db clock d' (n + 1) := by
  obtain ⟨row, s₁, hrow, hr⟩ := gives_bind.mp h
  obtain ⟨_, rfl⟩ := gives_orNoRows.mp hr
  exact hx row s' (gives_errorf.mp hrow)

theorem inside_of_sql {q : Stmt} {r : q.Result} {s' : Solo server}
    (h : GivesAlone env (sql q) (.inside db clock d n) r s') : ∃ d', s' = .inside db clock d' (n + 1) := by
  obtain ⟨d', _, hs⟩ := gives_sql.mp h
  exact ⟨d', hs⟩

/-- Whoever writes last and then only looks things up. -/
theorem noValueFails_last {α β : Type} {t : UUID} {x : Service β} {f : β → Service α}
    (hx : ∀ b s', GivesAlone env x (.inside db clock d n) b s' → ∃ d' n', s' = .inside db clock d' n')
    (hf : ∀ b, Looks t (f b)) :
    NoValueFails env (x >>= f) (.inside db clock d n) ↔ NoValueFails env x (.inside db clock d n) := by
  refine spared_before (E := server) fun b s' h => ?_
  obtain ⟨d', n', rfl⟩ := hx b s' h
  exact noValueFails_of_looks (hf b)

/-- A draft is looked up by the one who may edit it. -/
theorem noValueFails_editable {α : Type} {f : ExpenseReport → Service α} {r : ExpenseReport}
    (hfirst : reportRows.first (reportIs actor.tenantID k) d = some r) (howner : r.userID = actor.userID)
    (hdraft : r.status = .draft) :
    NoValueFails env (editableReport actor k >>= f) (.inside db clock d n) ↔
      NoValueFails env (f r) (.inside db clock d (n + 1)) :=
  noValueFails_after looks_editableReport (gives_editableReport.mpr ⟨⟨hfirst, howner, hdraft⟩, rfl⟩)

/-! ## Texts of reports -/

/-- `UpdateReport` is refused for its title, or not at all. -/
theorem noValueFails_updateReport {params : UpdateReportParams} (hd : Fitted d)
    (h : (Endpoint.updateReport k params).Admitted d actor) :
    NoValueFails env (ReportService.updateReport actor k params) (.inside db clock d n) ↔
      Storable 200 params.title := by
  obtain ⟨r, hfirst, howner, hdraft, hversion⟩ := h
  obtain ⟨hfind, htenant, hid⟩ := find_of_reportIs hfirst
  have hmodify : Authorizer.canModifyReport actor r = .ok () := if_neg (not_not.mpr howner.symm)
  have hedit : r.canEdit = .ok () := if_neg (not_not.mpr hdraft)
  have hcond : reportRows.first (fun x => reportIs r.tenantID r.reportID x && x.updatedAt = r.updatedAt) d =
      some r := by
    refine (Relation.first_of_key fun x hx => id_of_reportIs ((Bool.and_eq_true _ _).mp hx).1).mpr ?_
    obtain ⟨hfind', his⟩ := (Relation.first_of_key fun r => id_of_reportIs).mp hfirst
    rw [htenant, hid, his]
    exact ⟨hfind', by simp⟩
  unfold ReportService.updateReport
  rw [noValueFails_after looks_getReport (gives_getReport.mpr ⟨hfirst, rfl⟩),
    noValueFails_demand hmodify, noValueFails_demand hedit, if_neg (not_not.mpr hversion)]
  rw [noValueFails_last (fun b s' hb => ?_) fun _ => looks_buildDetail]
  · unfold ReportRepo.update
    rw [noValueFails_writeBack noValueFails_sql
      (alone_update clock rfl (fun _ hx => id_of_reportIs ((Bool.and_eq_true _ _).mp hx).1) nodup_reports)
      hcond]
    exact noValueError_setReport params.period_le (hd.total k r hfind)
  · obtain ⟨d', hs⟩ := inside_of_row (fun _ _ => inside_of_sql) hb
    exact ⟨d', _, hs⟩

/-- A call to the outside is no statement. -/
theorem noValueFails_ext {α : Type} {x : Ext} {f : x.Result → Service α} :
    NoValueFails env (ext x >>= f) (.inside db clock d n) ↔
      NoValueFails env (f (x.answer (env n))) (.inside db clock d (n + 1)) :=
  spared_after (E := server) ((spared_call (E := server)).mpr rfl) (gives_ext.mpr ⟨rfl, rfl⟩)

/-- A decision is refused for the texts that are written with it, or not at all. -/
theorem noValueFails_decideOn {v : Timestamp} {r r' : ExpenseReport}
    {transition : Timestamp → ExpenseReport → Except DomainError ExpenseReport}
    (hfirst : reportRows.first (reportIs actor.tenantID k) d = some r) (howner : r.userID ≠ actor.userID)
    (hversion : r.updatedAt = v) (htransition : transition (env (n + 1)).now r = .ok r')
    (hkey : r'.tenantID = r.tenantID ∧ r'.reportID = r.reportID ∧ r'.updatedAt = r.updatedAt) :
    NoValueFails env (WorkflowService.decideOn actor k v Authorizer.canApproveOrReject transition)
        (.inside db clock d n) ↔
      StorableNull 1000 r'.approvalComment ∧ StorableNull 1000 r'.rejectionReason := by
  have hauthorize : Authorizer.canApproveOrReject actor r = .ok () := if_neg fun h => howner h.symm
  obtain ⟨htenant', hid', hversion'⟩ := hkey
  obtain ⟨hfind, htenant, hid⟩ := find_of_reportIs hfirst
  have hcond : reportRows.first
      (fun x => reportIs r'.tenantID r'.reportID x && x.updatedAt = r'.updatedAt) d = some r := by
    refine (Relation.first_of_key fun x hx => id_of_reportIs ((Bool.and_eq_true _ _).mp hx).1).mpr ?_
    obtain ⟨hfind', his⟩ := (Relation.first_of_key fun r => id_of_reportIs).mp hfirst
    rw [htenant', hid', hversion', htenant, hid, his]
    exact ⟨hfind', by simp⟩
  unfold WorkflowService.decideOn
  rw [noValueFails_after looks_getReport (gives_getReport.mpr ⟨hfirst, rfl⟩),
    noValueFails_demand hauthorize, if_neg (not_not.mpr hversion)]
  unfold timeNow
  rw [noValueFails_ext]
  dsimp only [Ext.answer]
  rw [noValueFails_demand htransition]
  rw [noValueFails_last (fun b s' hb => ?_) fun _ => looks_buildWorkflowDetail (t := actor.tenantID)]
  · unfold ReportRepo.updateStatus
    rw [noValueFails_writeBack noValueFails_sql
      (alone_update clock rfl (fun _ hx => id_of_reportIs ((Bool.and_eq_true _ _).mp hx).1) nodup_reports)
      hcond]
    exact noValueError_setReportStatus
  · obtain ⟨d', hs⟩ := inside_of_row (fun _ _ => inside_of_sql) hb
    exact ⟨d', _, hs⟩

/-- `ApproveReport` is refused for its comment, or not at all. -/
theorem noValueFails_approveReport {comment : Option String} {v : Timestamp} (hd : Fitted d)
    (h : Awaiting d actor k v) :
    NoValueFails env (WorkflowService.approveReport actor k comment v) (.inside db clock d n) ↔
      StorableNull 1000 comment := by
  obtain ⟨r, hfirst, howner, hstatus, hversion⟩ := h
  obtain ⟨hfind, _, _⟩ := find_of_reportIs hfirst
  have happrove : r.approve (env (n + 1)).now actor.userID comment = .ok { r with
      status := .approved, approvedAt := some (env (n + 1)).now, approvedBy := some actor.userID
      approvalComment := comment } := by
    unfold ExpenseReport.approve
    rw [if_neg (not_not.mpr hstatus), if_neg (Ne.symm howner)]
  refine (noValueFails_decideOn hfirst howner hversion happrove ?_).trans ?_
  · exact ⟨rfl, rfl, rfl⟩
  · exact and_iff_left (hd.reason k r hfind)

/-- `RejectReport` is refused for its reason, or not at all. -/
theorem noValueFails_rejectReport {reason : String} {v : Timestamp} (hd : Fitted d)
    (h : Awaiting d actor k v) (hreason : trimSpace reason ≠ "") :
    NoValueFails env (WorkflowService.rejectReport actor k reason v) (.inside db clock d n) ↔
      Storable 1000 reason := by
  obtain ⟨r, hfirst, howner, hstatus, hversion⟩ := h
  obtain ⟨hfind, _, _⟩ := find_of_reportIs hfirst
  have hreject : r.reject (env (n + 1)).now actor.userID reason = .ok { r with
      status := .rejected, rejectedAt := some (env (n + 1)).now, rejectedBy := some actor.userID
      rejectionReason := some reason } := by
    unfold ExpenseReport.reject
    rw [if_neg (not_not.mpr hstatus), if_neg (Ne.symm howner), if_neg hreason]
  refine (noValueFails_decideOn hfirst howner hversion hreject ?_).trans ?_
  · exact ⟨rfl, rfl, rfl⟩
  · refine (and_iff_right (hd.comment k r hfind)).trans ?_
    exact ⟨fun h => h reason rfl, fun h t ht => by cases ht; exact h⟩

/-! ## File names -/

/-- The key of an attachment fits its column: an identifier takes at most 39 digits. -/
theorem storable_attachmentKey {t k u : UUID} (ht : t < 2 ^ 128) (hk : k < 2 ^ 128) (hu : u < 2 ^ 128) :
    Storable 500 (attachmentKey t k u) := by
  have hlength : ∀ u : UUID, u < 2 ^ 128 → (uuidString u).toList.length ≤ 39 := by
    intro u hu
    have hlt : u < 10 ^ 39 := Nat.lt_of_lt_of_le hu (by decide)
    exact Nat.repr_length u 39 (by decide) hlt
  have hdigit : ∀ u : UUID, ∀ c ∈ (uuidString u).toList, c.toNat ≠ 0 := by
    intro u c hc hzero
    have hdigit := isDigit_of_mem_uuidString hc
    simp only [Char.isDigit, Bool.and_eq_true, decide_eq_true_eq] at hdigit
    have h48 : 48 ≤ c.toNat := hdigit.1
    omega
  have hslash : '/'.toNat ≠ 0 := by decide
  refine ⟨fun c hc => ?_, fun c hc => ?_⟩
  · rw [toList_attachmentKey] at hc
    simp only [List.append_assoc, List.cons_append, List.mem_append, List.mem_cons] at hc
    rcases hc with hc | rfl | hc | rfl | hc
    · exact hdigit t c hc
    · exact hslash
    · exact hdigit k c hc
    · exact hslash
    · exact hdigit u c hc
  · have hle : (attachmentKey t k u).toList.length ≤ 500 := by
      rw [toList_attachmentKey]
      simp only [List.length_append, List.length_cons]
      have hlt := hlength t ht
      have hlk := hlength k hk
      have hlu := hlength u hu
      omega
    rw [List.drop_eq_nil_of_le hle] at hc
    cases hc

/-- `UploadAttachment` is refused for the name of the file, or not at all. -/
theorem noValueFails_uploadAttachment {i : UUID} {upload : FileUpload} (hd : Fitted d)
    (hactor : MemberOf d actor) (henv : Smooth d env) (hn : n + 2 < 2 ^ 64)
    (h : (Endpoint.uploadAttachment k i upload).Admitted d actor) :
    NoValueFails env (AttachmentService.uploadAttachment actor k i upload) (.inside db clock d n) ↔
      StorableBytes 255 upload.fileName := by
  obtain ⟨⟨r, hfirst, howner, hdraft⟩, ⟨x, hitem⟩, hdetect⟩ := h
  have hne : upload.content ≠ [] := by
    intro hnil
    have hvalid := upload.mimeType_valid
    rw [← hdetect, hnil] at hvalid
    cases hvalid
  have hpos : 0 < upload.fileSize := by
    have hlen := List.length_pos_of_ne_nil hne
    have heq := upload.fileSize_eq
    omega
  have hle : upload.fileSize ≤ 5 * 1024 * 1024 := upload.fileSize_le
  unfold AttachmentService.uploadAttachment
  rw [noValueFails_editable hfirst howner hdraft,
    noValueFails_after looks_getItem (gives_getItem.mpr ⟨hitem, rfl⟩),
    if_neg (Int.not_lt.mpr upload.fileSize_le), if_neg (by rw [upload.mimeType_valid]; decide),
    if_neg (not_not.mpr hdetect), noValueFails_ext]
  dsimp only [Ext.answer]
  rw [noValueFails_ext]
  have hstored : (Ext.answer (env (n + 1 + 1 + 1)) (.upload (uuidString actor.tenantID ++ "/" ++ uuidString k ++
      "/" ++ uuidString (env (n + 1 + 1)).uuid) upload.content upload.mimeType) : Except GoError Unit) =
      .ok () := by
    simp only [Ext.answer, Oracle.unless, henv.works]
  rw [hstored]
  refine (spared_after (E := server) (a := ()) (noValueFails_errorf.mpr (spared_ofExcept.mpr trivial))
    (gives_errorf.mpr (gives_orFail.mpr ⟨rfl, rfl⟩))).trans ?_
  refine (spared_before (E := server) fun _ _ _ => spared_pure.mpr trivial).trans ?_
  unfold AttachmentRepo.create
  rw [← NoValueFails, noValueFails_errorf, noValueFails_errorf, noValueFails_sql]
  rw [alone_insert attachmentRows (attachmentRow _) (q := .createAttachment _) id rfl, noValueError_inserted]
  refine noValueError_attachmentRow ?_ ?_ upload.mimeType_valid
  · exact storable_attachmentKey hactor.bits (hd.bits k r (find_of_reportIs hfirst).1) (henv.bits _ hn)
  · show 0 < int32 upload.fileSize ∧ int32 upload.fileSize ≤ 5242880
    rw [int32_fileSize]
    omega

end

/-! ## Amounts -/

/-- A report that items can be added to, with fresh identifiers from turn `n` on. -/
structure Filling (env : Nat → Oracle) (t k : UUID) (d : Database) (n : Nat) : Prop where
  report : ∃ r, d.reports.find k = some r ∧ r.tenantID = t ∧ r.periodStart.le r.periodEnd = true
  tenant : (d.tenants.find t).isSome = true
  fresh : ∀ m, n ≤ m → d.items.find (env m).uuid = none
  sum : 0 ≤ sumOfItems d t k

section

variable {env : Nat → Oracle} {db d : Database} {clock : Oracle} {n : Nat} {t k : UUID}

/-- A total is refused when it is too large. -/
theorem noValueFails_updateTotal {r : ExpenseReport} (hr : d.reports.find k = some r) (ht : r.tenantID = t)
    (hperiod : r.periodStart.le r.periodEnd = true) (hsum : 0 ≤ sumOfItems d t k) :
    NoValueFails env (sql (.updateReportTotalAmount t k)) (.inside db clock d n) ↔
      sumOfItems d t k < 2 ^ 31 := by
  have hid := Table.key_of_find hr
  subst ht hid
  rw [noValueFails_sql, alone_updateTotal hr rfl, noValueError_map]
  exact noValueError_setTotal hperiod hsum

/-- And written when it is not. -/
theorem setTotal_ok {r : ExpenseReport} (clock : Oracle) (hperiod : r.periodStart.le r.periodEnd = true)
    (hsum : 0 ≤ sumOfItems d r.tenantID r.reportID) (hlt : sumOfItems d r.tenantID r.reportID < 2 ^ 31) :
    ∃ r', setReportTotalAmount d d clock r = .ok r' ∧ r'.reportID = r.reportID ∧
      r'.tenantID = r.tenantID ∧ r'.periodStart = r.periodStart ∧ r'.periodEnd = r.periodEnd := by
  have hint : int4 (sumOfItems d r.tenantID r.reportID) = .ok (sumOfItems d r.tenantID r.reportID) := by
    unfold int4
    rw [if_pos ⟨by omega, hlt⟩]
  refine ⟨{ r with totalAmount := sumOfItems d r.tenantID r.reportID, updatedAt := clock.now },
    ?_, rfl, rfl, rfl, rfl⟩
  unfold setReportTotalAmount
  refine Except.bind_eq_ok.mpr ⟨_, hint, ?_⟩
  unfold checkReport
  refine Except.bind_eq_ok.mpr ⟨(), check_eq_ok.mpr hperiod, ?_⟩
  exact Except.bind_eq_ok.mpr ⟨(), check_eq_ok.mpr (decide_eq_true hsum), rfl⟩

/-- An item whose values fit is inserted. -/
theorem itemRow_ok_of_fits {p : CreateExpenseItemParams} {o : Oracle} (hdesc : Storable 500 p.description)
    (hamount : 0 < p.amount) (hreport : (d.reports.find p.reportID).isSome = true)
    (htenant : (d.tenants.find p.tenantID).isSome = true)
    (hcategory : (d.categories.find p.categoryID).isSome = true) : ∃ x, itemRow p d clock o = .ok x := by
  obtain ⟨description, hdesc⟩ := varchar_ok_iff.mpr hdesc
  refine ⟨{
    itemID := o.uuid, reportID := p.reportID, tenantID := p.tenantID
    expenseDate := p.expenseDate, amount := p.amount, categoryID := p.categoryID
    description := description, createdAt := clock.now, updatedAt := clock.now
    deletedAt := none }, Except.bind_eq_ok.mpr ⟨description, hdesc, ?_⟩⟩
  refine Except.bind_eq_ok.mpr ⟨(), check_eq_ok.mpr (decide_eq_true hamount), ?_⟩
  refine Except.bind_eq_ok.mpr ⟨(), references_eq_ok.mpr hreport, ?_⟩
  refine Except.bind_eq_ok.mpr ⟨(), references_eq_ok.mpr htenant, ?_⟩
  exact Except.bind_eq_ok.mpr ⟨(), references_eq_ok.mpr hcategory, rfl⟩

/-- What an item adds. -/
theorem sumOfItems_create {p : CreateExpenseItemParams} {o : Oracle} {x : ExpenseItem}
    (hx : itemRow p d clock o = .ok x) (hnone : d.items.find x.itemID = none) :
    sumOfItems (d.put (.item x)) p.tenantID p.reportID = sumOfItems d p.tenantID p.reportID + p.amount := by
  obtain ⟨description, _, heq⟩ := itemRow_ok hx
  have hworth : worth p.tenantID p.reportID x = p.amount := by
    rw [heq]
    simp [worth, itemOf]
  rw [sumOfItems_put_item, hnone, hworth]
  simp

/-- The row of an item whose values fit. -/
theorem Filling.row (h : Filling env t k d n) (clock : Oracle) (date : Date) {amount : Int} {c : UUID} {description : String}
    (hc : (d.categories.find c).isSome = true) (hdesc : Storable 500 description) (hpos : 0 < int32 amount) :
    ∃ x, itemRow ⟨k, t, date, int32 amount, c, description⟩ d clock (env n) = .ok x ∧
      x.itemID = (env n).uuid ∧ d.items.find x.itemID = none ∧
      sumOfItems (d.put (.item x)) t k = sumOfItems d t k + int32 amount := by
  obtain ⟨r, hr, _, _⟩ := h.report
  obtain ⟨x, hx⟩ : ∃ x, itemRow ⟨k, t, date, int32 amount, c, description⟩ d clock (env n) = .ok x :=
    itemRow_ok_of_fits hdesc hpos (by rw [hr]; rfl) h.tenant hc
  have hid : x.itemID = (env n).uuid := by
    obtain ⟨_, _, heq⟩ := itemRow_ok hx
    rw [heq]
  have hnone : d.items.find x.itemID = none := by
    rw [hid]
    exact h.fresh n (Nat.le_refl n)
  exact ⟨x, hx, hid, hnone, sumOfItems_create hx hnone⟩

/-- The three things an added item is refused for. -/
def ItemFits (d : Database) (t k : UUID) (amount : Int) (description : String) : Prop :=
  Storable 500 description ∧ 0 < int32 amount ∧ sumOfItems d t k + int32 amount < 2 ^ 31

/-- **An item that is added is refused for one of these three**, or not at all. -/
theorem noValueFails_itemCreate (h : Filling env t k d n) {date : Date} {amount : Int} {c : UUID}
    {description : String} (hc : (d.categories.find c).isSome = true) :
    NoValueFails env (ItemRepo.create t k date amount c description) (.inside db clock d n) ↔
      ItemFits d t k amount description := by
  obtain ⟨r, hr, ht, hperiod⟩ := h.report
  have hinsert : NoValueFails env (errorf "itemRepo.Create"
      (sql (.createExpenseItem ⟨k, t, date, int32 amount, c, description⟩))) (.inside db clock d n) ↔
        Storable 500 description ∧ 0 < int32 amount := by
    rw [noValueFails_errorf, noValueFails_sql,
      alone_insert itemRows (itemRow _) (q := .createExpenseItem _) id rfl, noValueError_inserted]
    exact noValueError_itemRow
  unfold ItemRepo.create ItemFits
  by_cases hfits : Storable 500 description ∧ 0 < int32 amount
  · obtain ⟨x, hx, _, hnone, hsum⟩ := h.row clock date hc hfits.1 hfits.2
    have hr' : (d.put (.item x)).reports.find k = some r := hr
    refine (spared_after (E := server) (hinsert.mpr hfits)
      (gives_errorf.mpr (gives_createExpenseItem.mpr ⟨hx, hnone, rfl⟩))).trans ?_
    refine (spared_before (E := server) fun _ _ _ => spared_pure.mpr trivial).trans ?_
    rw [← NoValueFails, noValueFails_errorf, noValueFails_updateTotal hr' ht hperiod, hsum]
    · exact ⟨fun hlt => ⟨hfits.1, hfits.2, hlt⟩, fun hall => hall.2.2⟩
    · have hle := h.sum
      have hpos := hfits.2
      omega
  · constructor
    · intro hall
      exact absurd (hinsert.mp ((spared_svc_bind (E := server)).mp hall).1) hfits
    · rintro ⟨hdesc, hpos, _⟩
      exact absurd ⟨hdesc, hpos⟩ hfits

variable (db clock) in
/-- An item that fits is added, and the report can be added to as before. -/
theorem Filling.create (h : Filling env t k d n) (honce : ∀ m n, (env m).uuid = (env n).uuid → m = n)
    (date : Date) {amount : Int} {c : UUID} {description : String}
    (hc : (d.categories.find c).isSome = true) (hfits : ItemFits d t k amount description) :
    ∃ x d', GivesAlone env (ItemRepo.create t k date amount c description) (.inside db clock d n) x
        (.inside db clock d' (n + 2)) ∧
      Filling env t k d' (n + 2) ∧ sumOfItems d' t k = sumOfItems d t k + int32 amount ∧
      d'.categories = d.categories := by
  obtain ⟨r, hr, ht, hperiod⟩ := h.report
  obtain ⟨hdesc, hpos, hlt⟩ := hfits
  obtain ⟨x, hx, hid, hnone, hsum⟩ := h.row clock date hc hdesc hpos
  have hr' : (d.put (.item x)).reports.find k = some r := hr
  have hle := h.sum
  have hrid := Table.key_of_find hr
  obtain ⟨r', hset, hrid', ht', hstart, hend⟩ := setTotal_ok (d := d.put (.item x)) clock hperiod
    (by rw [ht, hrid, hsum]; omega) (by rw [ht, hrid, hsum]; omega)
  refine ⟨x, (d.put (.item x)).put (.report r'), ?_, ?_, hsum, rfl⟩
  · refine gives_bind.mpr ⟨x, _, gives_errorf.mpr (gives_createExpenseItem.mpr ⟨hx, hnone, rfl⟩), ?_⟩
    refine gives_bind.mpr ⟨(), _, gives_errorf.mpr ((gives_updateTotal hr' ht).mpr ⟨r', hset, rfl⟩), ?_⟩
    exact gives_pure.mpr ⟨rfl, rfl⟩
  · refine ⟨⟨r', ?_, ht'.trans ht, ?_⟩, h.tenant, fun m hm => ?_, ?_⟩
    · rw [← hrid, ← hrid']
      exact Table.find_put_self
    · rw [hstart, hend]
      exact hperiod
    · have hne : x.itemID ≠ (env m).uuid := by
        rw [hid]
        intro heq
        have := honce n m heq
        omega
      show (d.items.put x).find (env m).uuid = none
      rw [Table.find_put_ne hne]
      exact h.fresh m (by omega)
    · show 0 ≤ sumOfItems (d.put (.item x)) t k
      omega

theorem sumOfItems_nonneg (h : ∀ i x, d.items.find i = some x → 0 < x.amount) : 0 ≤ sumOfItems d t k := by
  refine List.sum_nonneg fun a ha => ?_
  obtain ⟨x, hx, rfl⟩ := List.mem_map.mp ha
  have hmem : x ∈ d.items.rows := (List.mem_filter.mp hx).1
  exact Int.le_of_lt (h x.itemID x (Table.find_of_mem hmem))

/-- The report of an item that is added is the draft that was looked up. -/
theorem filling_of_draft {actor : Actor} {r : ExpenseReport} (hd : Fitted d) (henv : Smooth d env)
    (hactor : MemberOf d actor) (hfirst : reportRows.first (reportIs actor.tenantID k) d = some r) :
    Filling env actor.tenantID k d n where
  report := by
    obtain ⟨hfind, htenant, _⟩ := find_of_reportIs hfirst
    exact ⟨r, hfind, htenant, hd.period k r hfind⟩
  tenant := hactor.tenant
  fresh _ _ := henv.item _
  sum := sumOfItems_nonneg fun i x hx => (hd.amount i x hx).1

theorem find_of_choosable {c : UUID} (h : Choosable d t c) : (d.categories.find c).isSome = true := by
  obtain ⟨x, hx⟩ := h
  obtain ⟨hmem, hcond⟩ := categoryRows.mem_of_first hx
  simp only [Bool.and_eq_true, decide_eq_true_eq] at hcond
  rw [← hcond.1.1]
  exact Option.isSome_iff_exists.mpr ⟨x, Table.find_of_mem hmem⟩

/-- `CreateItem`. -/
theorem noValueFails_createItem {actor : Actor} {params : CreateItemParams} (hd : Fitted d) (henv : Smooth d env)
    (hactor : MemberOf d actor) (h : (Endpoint.createItem k params).Admitted d actor) :
    NoValueFails env (ItemService.createItem actor k params) (.inside db clock d n) ↔
      ItemFits d actor.tenantID k params.amount params.description := by
  obtain ⟨⟨r, hfirst, howner, hdraft⟩, hchoosable⟩ := h
  have hamount : ({ (default : ExpenseItem) with amount := params.amount }).validateAmount = .ok () :=
    if_neg (Int.not_le.mpr params.amount_pos)
  obtain ⟨c, hc⟩ := hchoosable
  unfold ItemService.createItem
  rw [noValueFails_editable hfirst howner hdraft, noValueFails_demand hamount,
    noValueFails_after looks_getCategory (gives_getCategory.mpr ⟨hc, rfl⟩)]
  rw [noValueFails_last (fun b s' hb => ?_) fun _ => looks_buildItemDTO, noValueFails_errorf]
  · exact noValueFails_itemCreate (filling_of_draft hd henv hactor hfirst) (find_of_choosable ⟨c, hc⟩)
  · obtain ⟨x, s₁, hx, hb⟩ := gives_bind.mp (gives_errorf.mp hb)
    obtain ⟨d₁, rfl⟩ := inside_of_sql (gives_errorf.mp hx)
    obtain ⟨_, s₂, htotal, hb⟩ := gives_bind.mp hb
    obtain ⟨d₂, rfl⟩ := inside_of_sql (gives_errorf.mp htotal)
    exact ⟨d₂, _, (gives_pure.mp hb).2⟩

/-- An item whose new values fit is written. -/
theorem setItem_ok_of_fits {p : UpdateExpenseItemParams} {x : ExpenseItem} (hdesc : Storable 500 p.description)
    (hamount : 0 < p.amount) (hcategory : (d.categories.find p.categoryID).isSome = true) :
    ∃ x', setItem p d d clock x = .ok x' := by
  obtain ⟨description, hdesc⟩ := varchar_ok_iff.mpr hdesc
  refine ⟨{ x with
    expenseDate := p.expenseDate, amount := p.amount, categoryID := p.categoryID
    description := description, updatedAt := clock.now }, Except.bind_eq_ok.mpr ⟨description, hdesc, ?_⟩⟩
  refine Except.bind_eq_ok.mpr ⟨(), check_eq_ok.mpr (decide_eq_true hamount), ?_⟩
  exact Except.bind_eq_ok.mpr ⟨(), references_eq_ok.mpr (by rw [hcategory, Bool.or_true]), rfl⟩

/-- What a changed item does to the sum. -/
theorem sumOfItems_update {p : UpdateExpenseItemParams} {x x' : ExpenseItem} (hx : itemOf t k x = true)
    (hfind : d.items.find x.itemID = some x) (hset : setItem p d d clock x = .ok x') :
    sumOfItems (d.put (.item x')) t k = sumOfItems d t k - x.amount + p.amount := by
  obtain ⟨description, heq⟩ := setItem_ok hset
  have hid : x'.itemID = x.itemID := by rw [heq]
  have hlive : itemOf t k x' = true := by
    rw [heq]
    exact hx
  have hamount : x'.amount = p.amount := by rw [heq]
  rw [sumOfItems_put_item, hid, hfind]
  simp [worth, hx, hlive, hamount]

/-- **An item that is changed is refused for its new values or for the new total**, or not at all. -/
theorem noValueFails_itemUpdate {item x : ExpenseItem} {r : ExpenseReport} (hd : Fitted d)
    (hr : d.reports.find k = some r) (ht : r.tenantID = t) (hfind : d.items.find item.itemID = some x)
    (hx : itemOf t k x = true) (hkey : item.tenantID = t ∧ item.reportID = k ∧ item.updatedAt = x.updatedAt)
    (hc : (d.categories.find item.categoryID).isSome = true) :
    NoValueFails env (ItemRepo.update item) (.inside db clock d n) ↔
      Storable 500 item.description ∧ 0 < int32 item.amount ∧
        sumOfItems d t k - x.amount + int32 item.amount < 2 ^ 31 := by
  obtain ⟨hitemt, hitemk, hitemv⟩ := hkey
  have hid := Table.key_of_find hfind
  obtain ⟨p, hp⟩ : ∃ p : UpdateExpenseItemParams, p = ⟨item.tenantID, item.reportID, item.itemID,
    item.expenseDate, int32 item.amount, item.categoryID, item.description, item.updatedAt⟩ := ⟨_, rfl⟩
  -- the update finds the item as it was read, since nothing has come between
  have hcond : itemRows.first (fun y => itemOf p.tenantID p.reportID y && y.itemID = p.itemID &&
      y.updatedAt = p.updatedAt) d = some x := by
    refine (Relation.first_of_key fun y hy => id_of_itemIs ((Bool.and_eq_true _ _).mp hy).1).mpr ⟨?_, ?_⟩
    · rw [itemRows.find_eq_some, hp]
      exact congrArg (Option.map Version.item) hfind
    · rw [hp]
      dsimp only
      rw [hitemt, hitemk, hx, hid, hitemv]
      simp
  have halone : server.alone (.updateExpenseItem p) clock (env n) d =
      itemRows.updated _ (setItem p) List.head? clock d :=
    alone_update clock rfl (fun y hy => id_of_itemIs ((Bool.and_eq_true _ _).mp hy).1) nodup_items
  have hupdate : NoValueFails env (errorf "itemRepo.Update" (sql (.updateExpenseItem p)))
      (.inside db clock d n) ↔ Storable 500 item.description ∧ 0 < int32 item.amount := by
    rw [noValueFails_errorf, noValueFails_sql, halone, noValueError_updated hcond, noValueError_setItem, hp]
  unfold ItemRepo.update
  rw [← hp]
  -- the update of the item is refused first, the new total only after it
  by_cases hfits : Storable 500 item.description ∧ 0 < int32 item.amount
  · obtain ⟨x', hset⟩ : ∃ x', setItem p d d clock x = .ok x' := by
      rw [hp]
      exact setItem_ok_of_fits hfits.1 hfits.2 hc
    have hgives : GivesAlone env (sql (.updateExpenseItem p)) (.inside db clock d n) (some x')
        (.inside db clock (d.put (.item x')) (n + 1)) :=
      gives_sql.mpr ⟨_, halone.trans (Relation.updated_eq_ok.mpr (.inr ⟨x, x', hcond, hset, rfl, rfl⟩)), rfl⟩
    have hsum : sumOfItems (d.put (.item x')) t k = sumOfItems d t k - x.amount + int32 item.amount := by
      rw [sumOfItems_update hx (by rw [hid]; exact hfind) hset, hp]
    obtain ⟨description, hx'⟩ := setItem_ok hset
    have hpos : ∀ i y, (d.put (.item x')).items.find i = some y → 0 < y.amount := by
      intro i y hy
      have hy : (d.items.put x').find i = some y := hy
      rw [Table.find_put] at hy
      split at hy
      · cases hy
        rw [hx', hp]
        exact hfits.2
      · exact (hd.amount i y hy).1
    have hr' : (d.put (.item x')).reports.find k = some r := hr
    have hkey' : x'.tenantID = t ∧ x'.reportID = k := by
      simp only [itemOf, Bool.and_eq_true, decide_eq_true_eq] at hx
      rw [hx']
      exact hx.1
    -- the item is updated, its row is looked at, and the total is left to be refused
    refine (spared_after (E := server) (hupdate.mpr hfits) (gives_errorf.mpr hgives)).trans ?_
    refine (spared_after (E := server) (a := x') (spared_pure.mpr trivial) (gives_pure.mpr ⟨rfl, rfl⟩)).trans ?_
    refine (spared_before (E := server) fun _ _ _ => spared_pure.mpr trivial).trans ?_
    rw [← NoValueFails, noValueFails_errorf, hkey'.1, hkey'.2,
      noValueFails_updateTotal hr' ht (hd.period k r hr) (sumOfItems_nonneg hpos), hsum]
    exact ⟨fun hlt => ⟨hfits.1, hfits.2, hlt⟩, fun hall => hall.2.2⟩
  · constructor
    · intro hall
      exact absurd (hupdate.mp ((spared_svc_bind (E := server)).mp hall).1) hfits
    · rintro ⟨hdesc, hamount, _⟩
      exact absurd ⟨hdesc, hamount⟩ hfits

/-- `UpdateItem`. -/
theorem noValueFails_updateItem {actor : Actor} {i : UUID} {params : UpdateItemParams} (hd : Fitted d)
    (h : (Endpoint.updateItem k i params).Admitted d actor) :
    NoValueFails env (ItemService.updateItem actor k i params) (.inside db clock d n) ↔
      (Endpoint.updateItem k i params).Fits d actor := by
  obtain ⟨⟨r, hfirst, howner, hdraft⟩, ⟨c, hc⟩, x, hitem, hversion⟩ := h
  obtain ⟨hfindr, htenant, _⟩ := find_of_reportIs hfirst
  obtain ⟨hfind, hlive⟩ := find_of_itemIs hitem
  have hid := Table.key_of_find hfind
  have hcategory := find_of_choosable ⟨c, hc⟩
  have hamount : ({ x with amount := params.amount }).validateAmount = .ok () :=
    if_neg (Int.not_le.mpr params.amount_pos)
  obtain ⟨hxt, hxk⟩ : x.tenantID = actor.tenantID ∧ x.reportID = k := by
    simp only [itemOf, Bool.and_eq_true, decide_eq_true_eq] at hlive
    exact hlive.1
  unfold ItemService.updateItem
  rw [noValueFails_editable hfirst howner hdraft,
    noValueFails_after looks_getItem (gives_getItem.mpr ⟨hitem, rfl⟩)]
  dsimp only
  rw [noValueFails_demand hamount, noValueFails_after looks_getCategory (gives_getCategory.mpr ⟨hc, rfl⟩)]
  rw [noValueFails_last (fun b s' hb => ?_) fun _ => looks_buildItemDTO]
  · refine (noValueFails_itemUpdate (x := x) hd hfindr htenant ?_ hlive ?_ hcategory).trans ?_
    · show d.items.find x.itemID = some x
      rw [hid]
      exact hfind
    · exact ⟨hxt, hxk, hversion.symm⟩
    · simp only [Endpoint.Fits, hfind, Option.map_some, Option.getD_some]
  · obtain ⟨row, s₁, hrow, hb⟩ := gives_bind.mp hb
    obtain ⟨d₁, rfl⟩ := inside_of_sql (gives_errorf.mp hrow)
    obtain ⟨written, s₂, hwritten, hb⟩ := gives_bind.mp hb
    obtain ⟨_, rfl⟩ := gives_orNoRows.mp hwritten
    obtain ⟨_, s₃, htotal, hb⟩ := gives_bind.mp hb
    obtain ⟨d₃, rfl⟩ := inside_of_sql (gives_errorf.mp htotal)
    exact ⟨d₃, _, (gives_pure.mp hb).2⟩

/-! ## Copies -/

theorem inside_of_itemCreate {date : Date} {amount : Int} {c : UUID} {description : String} {x : ExpenseItem}
    {s' : Solo server}
    (h : GivesAlone env (ItemRepo.create t k date amount c description) (.inside db clock d n) x s') :
    ∃ d', s' = .inside db clock d' (n + 2) := by
  obtain ⟨y, s₁, hy, h⟩ := gives_bind.mp h
  obtain ⟨d₁, rfl⟩ := inside_of_sql (gives_errorf.mp hy)
  obtain ⟨_, s₂, htotal, h⟩ := gives_bind.mp h
  obtain ⟨d₂, rfl⟩ := inside_of_sql (gives_errorf.mp htotal)
  exact ⟨d₂, (gives_pure.mp h).2⟩

theorem inside_of_copy {actor : Actor} {r : ExpenseReport} {items xs : List ExpenseItem} {s' : Solo server}
    (h : GivesAlone env (Svc.each (ReportService.copyItem actor r) items) (.inside db clock d n) xs s') :
    ∃ d' n', s' = .inside db clock d' n' := by
  induction items generalizing d n xs with
  | nil => exact ⟨d, n, (gives_pure.mp h).2⟩
  | cons x items ih =>
    obtain ⟨y, s₁, hy, h⟩ := gives_bind.mp h
    obtain ⟨d₁, rfl⟩ := inside_of_itemCreate (gives_errorf.mp hy)
    obtain ⟨ys, s₂, hys, h⟩ := gives_bind.mp h
    obtain ⟨rfl, rfl⟩ := gives_pure.mp h
    exact ih hys

/-- **The copies of the items are refused when their sum is too large**, or not at all. -/
theorem noValueFails_copy {actor : Actor} {r : ExpenseReport} {items : List ExpenseItem}
    (honce : ∀ m n, (env m).uuid = (env n).uuid → m = n)
    (h : Filling env actor.tenantID r.reportID d n) (hsum : sumOfItems d actor.tenantID r.reportID < 2 ^ 31)
    (hamount : ∀ x ∈ items, 0 < x.amount ∧ x.amount < 2 ^ 31)
    (hdesc : ∀ x ∈ items, Storable 500 x.description)
    (hc : ∀ x ∈ items, (d.categories.find x.categoryID).isSome = true) :
    NoValueFails env (Svc.each (ReportService.copyItem actor r) items) (.inside db clock d n) ↔
      sumOfItems d actor.tenantID r.reportID + (items.map ExpenseItem.amount).sum < 2 ^ 31 := by
  induction items generalizing d n with
  | nil =>
    rw [List.map_nil, List.sum_nil, Int.add_zero]
    exact ⟨fun _ => hsum, fun _ => spared_pure.mpr trivial⟩
  | cons x items ih =>
    obtain ⟨⟨hpos, hlt⟩, hamounts⟩ := List.forall_mem_cons.mp hamount
    obtain ⟨hdescx, hdescs⟩ := List.forall_mem_cons.mp hdesc
    obtain ⟨hcx, hcs⟩ := List.forall_mem_cons.mp hc
    have hint : int32 x.amount = x.amount := (int32_eq_self (Int.le_of_lt hpos)).mpr hlt
    have hrest : 0 ≤ (items.map ExpenseItem.amount).sum := by
      refine List.sum_nonneg fun a ha => ?_
      obtain ⟨y, hy, rfl⟩ := List.mem_map.mp ha
      exact Int.le_of_lt (hamounts y hy).1
    have hitem : NoValueFails env (ReportService.copyItem actor r x) (.inside db clock d n) ↔
        ItemFits d actor.tenantID r.reportID x.amount x.description :=
      noValueFails_errorf.trans (noValueFails_itemCreate h hcx)
    rw [List.map_cons, List.sum_cons]
    by_cases hfits : ItemFits d actor.tenantID r.reportID x.amount x.description
    · obtain ⟨y, d', hy, hfill', hsum', hcats⟩ := h.create db clock honce x.expenseDate
        hcx hfits
      rw [hint] at hsum'
      have hlt' : sumOfItems d' actor.tenantID r.reportID < 2 ^ 31 := by
        rw [hsum', ← hint]
        exact hfits.2.2
      refine (spared_after (E := server) (hitem.mpr hfits) (gives_errorf.mpr hy)).trans ?_
      refine (spared_before (E := server) fun _ _ _ => spared_pure.mpr trivial).trans ?_
      refine (ih hfill' hlt' hamounts hdescs (by rw [hcats]; exact hcs)).trans ?_
      rw [hsum', Int.add_assoc]
    · constructor
      · intro hall
        exact absurd (hitem.mp ((spared_svc_bind (E := server)).mp hall).1) hfits
      · intro hall
        refine absurd ⟨hdescx, ?_, ?_⟩ hfits
        · rw [hint]
          exact hpos
        · rw [hint]
          omega

/-- A report whose values fit is inserted. -/
theorem reportRow_ok_of_fits {p : Sql.CreateReportParams} {o : Oracle} (htitle : Storable 200 p.title)
    (hperiod : p.periodStart.le p.periodEnd = true) (htenant : (d.tenants.find p.tenantID).isSome = true)
    (huser : (d.users.find p.userID).isSome = true)
    (href : ∀ k ∈ p.referenceReportID, (d.reports.find k).isSome = true) : ∃ r, reportRow p d clock o = .ok r := by
  obtain ⟨title, htitle⟩ := varchar_ok_iff.mpr htitle
  have href : (p.referenceReportID.all fun k => (d.reports.find k).isSome) = true := by
    cases hp : p.referenceReportID with
    | none => rfl
    | some k => exact href k hp
  obtain ⟨r, hr⟩ : ∃ r : ExpenseReport, r = {
      reportID := o.uuid, tenantID := p.tenantID, userID := p.userID, title := title
      periodStart := p.periodStart, periodEnd := p.periodEnd, status := .draft, totalAmount := 0
      referenceReportID := p.referenceReportID, submittedBy := none, submittedAt := none
      approvedBy := none, approvedAt := none, approvalComment := none, rejectedBy := none
      rejectedAt := none, rejectionReason := none, paidBy := none, paidAt := none
      createdAt := clock.now, updatedAt := clock.now, deletedAt := none } := ⟨_, rfl⟩
  have hcheck : checkReport r = .ok r := by
    rw [hr]
    unfold checkReport
    refine Except.bind_eq_ok.mpr ⟨(), check_eq_ok.mpr hperiod, ?_⟩
    exact Except.bind_eq_ok.mpr ⟨(), check_eq_ok.mpr (decide_eq_true (Int.le_refl 0)), rfl⟩
  refine ⟨r, Except.bind_eq_ok.mpr ⟨title, htitle, ?_⟩⟩
  refine Except.bind_eq_ok.mpr ⟨r, hr ▸ hcheck, ?_⟩
  refine Except.bind_eq_ok.mpr ⟨(), references_eq_ok.mpr htenant, ?_⟩
  refine Except.bind_eq_ok.mpr ⟨(), references_eq_ok.mpr huser, ?_⟩
  exact Except.bind_eq_ok.mpr ⟨(), references_eq_ok.mpr href, rfl⟩

theorem inside_of_copyItems {actor : Actor} {r b : ExpenseReport} {reference : Option UUID} {s' : Solo server}
    (h : GivesAlone env (ReportService.copyItems actor r reference) (.inside db clock d n) b s') :
    ∃ d' n', s' = .inside db clock d' n' := by
  cases reference with
  | none => exact ⟨d, n, (gives_pure.mp h).2⟩
  | some k =>
    obtain ⟨items, s₁, hitems, h⟩ := gives_bind.mp h
    obtain ⟨_, rfl⟩ := gives_listItems.mp (gives_errorf.mp hitems)
    obtain ⟨xs, s₂, hxs, h⟩ := gives_bind.mp h
    obtain ⟨d', n', rfl⟩ := inside_of_copy hxs
    obtain ⟨_, rfl⟩ := gives_getReport.mp (gives_errorf.mp h)
    exact ⟨d', n' + 1, rfl⟩

/-- Copying the items of a report into a new one, which has none. -/
theorem noValueFails_copyItems {actor : Actor} {r : ExpenseReport} {reference : Option UUID} (hd : Fitted d)
    (henv : Smooth d env) (hactor : MemberOf d actor) (hr : r.tenantID = actor.tenantID)
    (hperiod : r.periodStart.le r.periodEnd = true) (hnew : d.reports.find r.reportID = none) :
    NoValueFails env (ReportService.copyItems actor r reference) (.inside db clock (d.put (.report r)) n) ↔
      ∀ k ∈ reference, sumOfItems d actor.tenantID k < 2 ^ 31 := by
  cases reference with
  | none =>
    refine ⟨fun _ k hk => ?_, fun _ => spared_pure.mpr trivial⟩
    cases hk
  | some k =>
    have hitems : ∀ t k, itemRows.filter (itemOf t k) (d.put (.report r)) = itemRows.filter (itemOf t k) d :=
      fun _ _ => rfl
    -- No item is in the new report.
    have hnone : sumOfItems (d.put (.report r)) actor.tenantID r.reportID = 0 := by
      have hnil : itemRows.filter (itemOf actor.tenantID r.reportID) d = [] := by
        refine List.filter_eq_nil_iff.mpr fun x hx hof => ?_
        simp only [itemOf, Bool.and_eq_true, decide_eq_true_eq] at hof
        have hthere := hd.report x.itemID x (Table.find_of_mem hx)
        rw [hof.1.2, hnew] at hthere
        cases hthere
      unfold sumOfItems
      rw [liveItems_eq, hitems, hnil]
      rfl
    have hfill : Filling env actor.tenantID r.reportID (d.put (.report r)) (n + 1) := by
      refine ⟨⟨r, Table.find_put_self, hr, hperiod⟩, hactor.tenant, fun m _ => henv.item m, ?_⟩
      rw [hnone]
    have hmem : ∀ x ∈ orderBy (fun i => asc i.createdAt ++ asc ((env n).rank i.itemID))
        (itemRows.filter (itemOf actor.tenantID k) (d.put (.report r))), d.items.find x.itemID = some x := by
      intro x hx
      exact Table.find_of_mem (List.mem_filter.mp (perm_orderBy.mem_iff.mp hx)).1
    unfold ReportService.copyItems
    rw [noValueFails_after (looks_errorf looks_listItems) (gives_errorf.mpr (gives_listItems.mpr ⟨rfl, rfl⟩))]
    rw [noValueFails_last (fun _ _ => inside_of_copy) fun _ => looks_errorf looks_getReport]
    rw [noValueFails_copy henv.once hfill (by rw [hnone]; decide) (fun x hx => hd.amount _ x (hmem x hx))
      (fun x hx => hd.description _ x (hmem x hx)) fun x hx => hd.category _ x (hmem x hx)]
    rw [hnone, Int.zero_add, (perm_orderBy.map _).sum_eq, hitems, ← liveItems_eq, ← sumOfItems]
    constructor
    · intro hlt k' hk'
      cases hk'
      exact hlt
    · exact fun h => h k rfl

/-- `CreateReport`. -/
theorem noValueFails_createReport {actor : Actor} {params : CreateReportParams} (hd : Fitted d)
    (henv : Smooth d env) (hactor : MemberOf d actor) (h : (Endpoint.createReport params).Admitted d actor) :
    NoValueFails env (ReportService.createReport actor params) (.inside db clock d n) ↔
      (Endpoint.createReport params).Fits d actor := by
  obtain ⟨n', hcheck⟩ : ∃ n', GivesAlone env (ReportService.checkReference actor params.referenceReportID)
      (.inside db clock d n) () (.inside db clock d n') := by
    cases href : params.referenceReportID with
    | none => exact ⟨n, gives_pure.mpr ⟨rfl, rfl⟩⟩
    | some k => exact ⟨n + 1, gives_checkReference.mpr ⟨h k href, rfl⟩⟩
  have hinsert : NoValueFails env (errorf "reportService.CreateReport" (ReportRepo.create actor.tenantID
      actor.userID params.title params.periodStart params.periodEnd params.referenceReportID))
        (.inside db clock d n') ↔ Storable 200 params.title := by
    unfold ReportRepo.create
    rw [noValueFails_errorf, noValueFails_errorf, noValueFails_sql,
      alone_insert reportRows (reportRow _) (q := .createReport _) id rfl, noValueError_inserted]
    exact noValueError_reportRow params.period_le
  unfold ReportService.createReport
  rw [noValueFails_after looks_checkReference hcheck]
  simp only [Endpoint.Fits]
  by_cases htitle : Storable 200 params.title
  · have href : ∀ k ∈ params.referenceReportID, (d.reports.find k).isSome = true := by
      intro k hk
      obtain ⟨r, hfirst, _⟩ := h k hk
      rw [(find_of_reportIs hfirst).1]
      rfl
    obtain ⟨r, hr⟩ : ∃ r, reportRow ⟨actor.tenantID, actor.userID, params.title, params.periodStart,
        params.periodEnd, params.referenceReportID⟩ d clock (env n') = .ok r :=
      reportRow_ok_of_fits htitle params.period_le hactor.tenant hactor.user href
    obtain ⟨title, _, heq⟩ := reportRow_ok hr
    have hnew : d.reports.find r.reportID = none := by
      rw [heq]
      exact henv.report n'
    refine (spared_after (E := server) (hinsert.mpr htitle)
      (gives_errorf.mpr (gives_errorf.mpr (gives_createReport.mpr ⟨hr, hnew, rfl⟩)))).trans ?_
    rw [← NoValueFails, noValueFails_last (fun _ _ => inside_of_copyItems) fun _ => looks_buildDetail]
    rw [noValueFails_copyItems hd henv hactor (by rw [heq]) (by rw [heq]; exact params.period_le) hnew]
    exact (and_iff_right htitle).symm
  · constructor
    · intro hall
      exact absurd (hinsert.mp ((spared_svc_bind (E := server)).mp hall).1) htitle
    · exact fun hall => absurd hall.1 htitle

end

/-! ## Every request -/

/-- **A request that has passed the checks of its handler and its service is free of errors of columns and
of `CHECK`s exactly when it fits.** -/
theorem accepted_iff_fits {env : Nat → Oracle} {d : Database} {actor : Actor} {e : Endpoint} (hd : Fitted d)
    (henv : Smooth d env) (hactor : MemberOf d actor) (hrole : actor.role ∈ e.roles) (h : e.Admitted d actor) :
    Accepted env d (.tenant actor e) ↔ e.Fits d actor := by
  rw [accepted_tenant hrole]
  cases e with
  | createReport params =>
    exact spared_map.trans (noValueFails_createReport hd henv hactor h)
  | updateReport k params => exact spared_map.trans (noValueFails_updateReport hd h)
  | createItem k params => exact spared_map.trans (noValueFails_createItem hd henv hactor h)
  | updateItem k i params => exact spared_map.trans (noValueFails_updateItem hd h)
  | uploadAttachment k i upload => exact spared_map.trans (noValueFails_uploadAttachment hd hactor henv (by decide) h)
  | approveReport k comment v => exact spared_map.trans (noValueFails_approveReport hd h)
  | rejectReport k reason v hreason => exact spared_map.trans (noValueFails_rejectReport hd h.1 h.2)
  | _ => exact h.elim

namespace Sample

/-- Surroundings in which nothing fails. -/
def calm (n : Nat) : Oracle := .at (100 + n)

/-- A new report under a title that is longer than its column. -/
def longTitle : CreateReportParams where
  title := String.ofList (List.replicate 201 'x')
  periodStart := ⟨2024, 1, 1⟩
  periodEnd := ⟨2024, 1, 31⟩
  referenceReportID := none
  title_ne := by decide +kernel
  period_le := by decide

end Sample

theorem report_of_database {k : UUID} {r : ExpenseReport} (h : Sample.database.reports.find k = some r) :
    k = 1 ∧ r = Sample.report := by
  obtain rfl := List.mem_singleton.mp (Table.mem_of_find h)
  exact ⟨(Table.key_of_find h).symm, rfl⟩

theorem item_of_database {k : UUID} {x : ExpenseItem} (h : Sample.database.items.find k = some x) :
    x = Sample.item := List.mem_singleton.mp (Table.mem_of_find h)

theorem fitted_database : Fitted Sample.database := by
  have hnull : StorableNull 1000 none := fun t ht => by cases ht
  refine ⟨fun k x h => ?_, fun k x h => ?_, fun k x h => ?_, fun k x h => ?_, fun k r h => ?_, fun k r h => ?_,
    fun k r h => ?_, fun k r h => ?_, fun k r h => ?_⟩
  · rw [item_of_database h]
    decide
  · rw [item_of_database h]
    decide
  · rw [item_of_database h]
    decide
  · rw [item_of_database h]
    decide
  · rw [(report_of_database h).2]
    decide
  · rw [(report_of_database h).2]
    decide
  · rw [(report_of_database h).2]
    exact hnull
  · rw [(report_of_database h).2]
    exact hnull
  · rw [(report_of_database h).1]
    decide

theorem smooth_calm : Smooth Sample.database Sample.calm where
  works _ := rfl
  bits n hn := by
    show 100 + n < 2 ^ 128
    omega
  once m n h := by
    have h : 100 + m = 100 + n := h
    omega
  report n := by
    cases hfind : Sample.database.reports.find (Sample.calm n).uuid with
    | none => rfl
    | some r =>
      have hk : 100 + n = 1 := (report_of_database hfind).1
      omega
  item n := by
    cases hfind : Sample.database.items.find (Sample.calm n).uuid with
    | none => rfl
    | some x =>
      have hk : x.itemID = 100 + n := Table.key_of_find hfind
      rw [item_of_database hfind] at hk
      have hk : 2 = 100 + n := hk
      omega

theorem memberOf_owner : MemberOf Sample.database Sample.owner := ⟨by decide, by decide, by decide⟩

theorem accepted_of_taxi :
    Accepted Sample.calm Sample.database (.tenant Sample.owner (.createItem 1 Sample.newItem)) := by
  refine (accepted_iff_fits fitted_database smooth_calm memberOf_owner (by decide) ?_).mpr ?_
  · exact ⟨⟨Sample.report, rfl, rfl, rfl⟩, Sample.category, rfl⟩
  · exact ⟨by decide, by decide, by decide⟩

theorem not_accepted_of_longTitle : Fitted Sample.database ∧ Smooth Sample.database Sample.calm ∧
    (Endpoint.createReport Sample.longTitle).Admitted Sample.database Sample.owner ∧
    ¬ Accepted Sample.calm Sample.database (.tenant Sample.owner (.createReport Sample.longTitle)) := by
  refine ⟨fitted_database, smooth_calm, fun k hk => ?_, ?_⟩
  · cases hk
  · unfold Accepted Spared
    decide +kernel

end ExpenseSaas
