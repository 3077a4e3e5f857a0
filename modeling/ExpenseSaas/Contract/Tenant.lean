import ExpenseSaas.Contract.Reads

/-!
# What a request may write

`MayWrite` says, for each endpoint, which statements it may change data with and
what its transaction has read by then. Five endpoints edit the items or
attachments of a report: by the time of their first write they have seen the
report as a draft of the actor's own. Deleting a report is checked in the same
way. The endpoints that name a version of the report (`Endpoint.version`) write
back what they make of exactly the row they read.

`Asks` is the whole contract of a request: it reads within its tenant, writes as
`MayWrite` allows, in the order `Prepared` demands, and commits only when the total of every report whose items it
changed has been recomputed or the report is deleted (`owes`). `call_keeps` proves
it of the code.
-/

namespace ExpenseSaas

open ReadCommitted Sql

/-- The commands and answers of a session so far. -/
abbrev Trace : Type := server.History

/-! ## Vocabulary -/

/-- The report an endpoint edits the items or attachments of. -/
def Endpoint.edits : Endpoint → Option UUID
  | .createItem k _ => some k
  | .updateItem k _ _ => some k
  | .deleteItem k _ => some k
  | .uploadAttachment k _ _ => some k
  | .deleteAttachment k _ _ => some k
  | _ => none

/-- The report an endpoint deletes. -/
def Endpoint.deletes : Endpoint → Option UUID
  | .deleteReport k => some k
  | _ => none

/-- The report an endpoint changes, and the version of it the client names. -/
def Endpoint.version : Endpoint → Option (UUID × Timestamp)
  | .updateReport k params => some (k, params.updatedAt)
  | .submitReport k v => some (k, v)
  | .approveReport k _ v => some (k, v)
  | .rejectReport k _ v _ => some (k, v)
  | .markReportAsPaid k v => some (k, v)
  | _ => none

/-- A transition an endpoint makes of the report it read. -/
inductive Transition (actor : Actor) : Endpoint → ExpenseReport → ExpenseReport → Prop where
  | submit {k v r r' now items hasApprover} : r.userID = actor.userID →
      r.submit now actor.userID items hasApprover = .ok r' →
      Transition actor (.submitReport k v) r r'
  | approve {k comment v r r' now} : r.approve now actor.userID comment = .ok r' →
      Transition actor (.approveReport k comment v) r r'
  | reject {k reason v h r r' now} : r.reject now actor.userID reason = .ok r' →
      Transition actor (.rejectReport k reason v h) r r'
  | pay {k v r r' now} : r.markAsPaid now actor.userID = .ok r' →
      Transition actor (.markReportAsPaid k v) r r'

/-- The parameters of the statement that writes an entity's status back. -/
def statusParams (r : ExpenseReport) : UpdateReportStatusParams where
  tenantID := r.tenantID
  reportID := r.reportID
  status := r.status
  submittedBy := r.submittedBy
  submittedAt := r.submittedAt
  approvedBy := r.approvedBy
  approvedAt := r.approvedAt
  approvalComment := r.approvalComment
  rejectedBy := r.rejectedBy
  rejectedAt := r.rejectedAt
  rejectionReason := r.rejectionReason
  paidBy := r.paidBy
  paidAt := r.paidAt
  updatedAt := r.updatedAt

/-- The statement changes items or attachments of report `k`, or recomputes its total. -/
def Sql.Stmt.editsIn (t k : UUID) : Stmt → Bool
  | .createExpenseItem p => p.tenantID = t && p.reportID = k
  | .updateExpenseItem p => p.tenantID = t && p.reportID = k
  | .softDeleteExpenseItem t' k' _ => t' = t && k' = k
  | .updateReportTotalAmount t' k' => t' = t && k' = k
  | .createAttachment p => p.tenantID = t && p.reportID = k
  | .softDeleteAttachment t' k' _ _ => t' = t && k' = k
  | .softDeleteAttachmentsByItemID t' k' _ => t' = t && k' = k
  | _ => false

/-- The statement belongs to the cascade that deletes report `k`. -/
def Sql.Stmt.deletesIn (t k : UUID) : Stmt → Bool
  | .softDeleteExpenseItemsByReportID t' k' => t' = t && k' = k
  | .softDeleteAttachmentsByReportID t' k' => t' = t && k' = k
  | .softDeleteReport t' k' => t' = t && k' = k
  | _ => false

/-- Identifiers agree with themselves, as the tables above compare them. -/
theorem agree_self {t k : UUID} : (decide (t = t) && decide (k = k)) = true := by simp

/-- Report `r` was read under key `k` before anything was written. -/
def ReadReport (actor : Actor) (tr : Trace) (k : UUID) (r : ExpenseReport) : Prop :=
  server.Seen tr (.getReportByID actor.tenantID k) (some r)

/-- The transaction has seen report `k` as a draft of the actor's own. -/
def DraftSeen (actor : Actor) (tr : Trace) (k : UUID) : Prop :=
  ∃ r, ReadReport actor tr k r ∧ r.userID = actor.userID ∧ r.status = .draft

/-- The transaction has created report `k`. -/
def Created (actor : Actor) (tr : Trace) (k : UUID) : Prop :=
  ∃ p r, (⟨.sql (.createReport p), .ok r⟩ : Event Command Command.Resp) ∈ tr ∧ r.reportID = k ∧
    p.tenantID = actor.tenantID

/-- What an endpoint may write, and what it has read by then. -/
inductive MayWrite (actor : Actor) (tr : Trace) : Endpoint → Stmt → Prop where
  | create {params} : MayWrite actor tr (.createReport params) (.createReport
      ⟨actor.tenantID, actor.userID, params.title, params.periodStart, params.periodEnd,
        params.referenceReportID⟩)
  | copy {params k q} : Created actor tr k → q.editsIn actor.tenantID k = true →
      MayWrite actor tr (.createReport params) q
  | edit {e k q} : e.edits = some k → DraftSeen actor tr k →
      q.editsIn actor.tenantID k = true → MayWrite actor tr e q
  | delete {e k q} : e.deletes = some k → DraftSeen actor tr k →
      q.deletesIn actor.tenantID k = true → MayWrite actor tr e q
  | update {k params r} : ReadReport actor tr k r → r.userID = actor.userID →
      r.status = .draft → r.updatedAt = params.updatedAt → server.clean tr = true →
      MayWrite actor tr (.updateReport k params) (.updateReport
        ⟨r.tenantID, r.reportID, params.title, params.periodStart, params.periodEnd, r.updatedAt⟩)
  | status {e k v r r'} : e.version = some (k, v) → ReadReport actor tr k r → r.updatedAt = v →
      Transition actor e r r' → server.clean tr = true →
      MayWrite actor tr e (.updateReportStatus (statusParams r'))

/-- The report whose total the statement leaves to be recomputed. -/
def Sql.Stmt.incurs : Stmt → Option UUID
  | .createExpenseItem p => some p.reportID
  | .updateExpenseItem p => some p.reportID
  | .softDeleteExpenseItem _ k _ => some k
  | .softDeleteExpenseItemsByReportID _ k => some k
  | _ => none

/-- The report whose total the statement recomputes, or makes irrelevant. -/
def Sql.Stmt.settles : Stmt → Option UUID
  | .updateReportTotalAmount _ k => some k
  | .softDeleteReport _ k => some k
  | _ => none

/-- What an answered statement does to the reports whose totals are left to be recomputed. -/
def account (owed : List UUID) : Event Command Command.Resp → List UUID
  | ⟨.sql q, .ok _⟩ => owed.filter (fun k => q.settles ≠ some k) ++ q.incurs.toList
  | _ => owed

/-- The reports whose items were changed and whose total has not been recomputed since. -/
def owes (tr : Trace) : List UUID := tr.foldl account []

/-- The statement was issued and went through. -/
def Answered (tr : Trace) (q : Stmt) : Prop :=
  ∃ r, (⟨.sql q, .ok r⟩ : Event Command Command.Resp) ∈ tr

/--
What comes before a statement that puts something under a parent, or takes a
parent away: the parent was found, or what is under it was taken away first. A
report is handed in after an approver was found.
-/
def Prepared (tr : Trace) : Stmt → Prop
  | .createAttachment p =>
      ∃ x, server.Seen tr (.getExpenseItemByID p.tenantID p.reportID p.itemID) (some x)
  | .softDeleteExpenseItem t k i => Answered tr (.softDeleteAttachmentsByItemID t k i)
  | .softDeleteReport t k => Answered tr (.softDeleteExpenseItemsByReportID t k) ∧
      Answered tr (.softDeleteAttachmentsByReportID t k)
  | .updateReportStatus p => p.status = .submitted → server.Seen tr (.hasApprover p.tenantID) true
  | _ => True

/-- What a request promises about the commands it issues. -/
def Asks (actor : Actor) (e : Endpoint) (tr : Trace) : Command → Prop
  | .begin => tr = []
  | .commit => owes tr = []
  | .rollback => True
  | .ext _ => True
  | .sql q => q.readsIn actor.tenantID = true ∨ (MayWrite actor tr e q ∧ Prepared tr q)

/-- The contract of a request. -/
abbrev requestContract (actor : Actor) (e : Endpoint) : Contract Command Command.Resp :=
  server.contract (Asks actor e)

/-! ## Histories that only grew by reading -/

/-- The history `tr'` goes on from `tr` with harmless events. -/
def Onward (t : UUID) (tr tr' : Trace) : Prop := ∃ evs, tr' = tr ++ evs ∧ ∀ ev ∈ evs, Harmless t ev.1

section

variable {t : UUID} {tr tr' tr'' : Trace} {actor : Actor} {k : UUID}

theorem Onward.trans (h : Onward t tr tr') (h' : Onward t tr' tr'') : Onward t tr tr'' := by
  obtain ⟨evs, rfl, he⟩ := h
  obtain ⟨evs', rfl, he'⟩ := h'
  refine ⟨evs ++ evs', by simp, fun ev hev => ?_⟩
  rcases List.mem_append.mp hev with hev | hev
  · exact he ev hev
  · exact he' ev hev

theorem clean_of_harmless {ev : Event Command Command.Resp} (h : Harmless t ev.1) :
    server.clean (tr ++ [ev]) = server.clean tr := by
  obtain ⟨c, r⟩ := ev
  cases c with
  | sql q =>
    rw [Engine.clean_append_sql (E := server), reads_of_readsIn h, Bool.and_true]
  | ext x => exact Engine.clean_append_ext (E := server)
  | begin => exact h.elim
  | commit => exact h.elim
  | rollback => exact h.elim

theorem owes_append {ev : Event Command Command.Resp} :
    owes (tr ++ [ev]) = account (owes tr) ev := by
  simp [owes]

theorem account_of_harmless {owed : List UUID} {ev : Event Command Command.Resp}
    (h : Harmless t ev.1) : account owed ev = owed := by
  obtain ⟨c, r⟩ := ev
  cases c with
  | sql q =>
    cases r with
    | error e => rfl
    | ok r =>
      have hq : q.settles = none ∧ q.incurs = none := by
        cases q <;> first
          | exact ⟨rfl, rfl⟩
          | cases h
      simp [account, hq]
  | ext x => rfl
  | begin => exact h.elim
  | commit => exact h.elim
  | rollback => exact h.elim

theorem Onward.clean (h : Onward t tr tr') : server.clean tr' = server.clean tr := by
  obtain ⟨evs, rfl, he⟩ := h
  induction evs using List.reverseRecOn with
  | nil => simp
  | append_singleton evs ev ih =>
    rw [← List.append_assoc, clean_of_harmless (he ev (by simp))]
    exact ih fun v hv => he v (by simp [hv])

theorem Onward.owes (h : Onward t tr tr') : owes tr' = owes tr := by
  obtain ⟨evs, rfl, he⟩ := h
  induction evs using List.reverseRecOn with
  | nil => simp
  | append_singleton evs ev ih =>
    rw [← List.append_assoc, owes_append, account_of_harmless (he ev (by simp))]
    exact ih fun v hv => he v (by simp [hv])

theorem Onward.readReport (h : Onward t tr tr') {r : ExpenseReport}
    (hr : ReadReport actor tr k r) : ReadReport actor tr' k r := by
  obtain ⟨evs, rfl, _⟩ := h
  exact hr.append evs

theorem Onward.seen (h : Onward t tr tr') {q : Stmt} {r : q.Result} (hr : server.Seen tr q r) :
    server.Seen tr' q r := by
  obtain ⟨evs, rfl, _⟩ := h
  exact hr.append evs

theorem Onward.draftSeen (h : Onward t tr tr') (hd : DraftSeen actor tr k) :
    DraftSeen actor tr' k := by
  obtain ⟨evs, rfl, _⟩ := h
  obtain ⟨r, hr, hu, hs⟩ := hd
  exact ⟨r, hr.append evs, hu, hs⟩

theorem DraftSeen.append (h : DraftSeen actor tr k) (evs : Trace) :
    DraftSeen actor (tr ++ evs) k := by
  obtain ⟨r, hr, hu, hs⟩ := h
  exact ⟨r, hr.append evs, hu, hs⟩

theorem Created.append (h : Created actor tr k) (evs : Trace) : Created actor (tr ++ evs) k := by
  obtain ⟨p, r, hr, hk, hp⟩ := h
  exact ⟨p, r, List.mem_append_left _ hr, hk, hp⟩

end

end ExpenseSaas
