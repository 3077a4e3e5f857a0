import ExpenseSaas.Contract.Tenant

/-!
# Every request keeps its contract

The services that change something, one lemma each, and the transaction around
all of them.
-/

namespace ExpenseSaas

open ReadCommitted Sql

section

variable {α : Type} {G : Contract Command Command.Resp} {tr : Trace}

theorem wp_sql {q : Stmt} {Q : Trace → q.Result → Prop} (h : G.asks tr (.sql q))
    (hQ : ∀ r, G.gets tr (.sql q) (.ok r) → Q (tr ++ [⟨.sql q, .ok r⟩]) r) :
    Svc.wp G tr (sql q) Q := by
  unfold sql call orSqlError
  rw [Svc.wp_bind, Svc.wp_call]
  refine ⟨h, fun r hr => ?_⟩
  rw [Svc.wp_ofExcept]
  intro a ha
  cases r with
  | error e => cases ha
  | ok x =>
    cases ha
    exact hQ _ hr

@[simp] theorem wp_errorf {context : String} {x : Service α} {Q : Trace → α → Prop} :
    Svc.wp G tr (errorf context x) Q ↔ Svc.wp G tr x Q := Svc.wp_mapError

@[simp] theorem wp_fail {e : DomainError} {Q : Trace → α → Prop} :
    Svc.wp G tr (fail e : Service α) Q ↔ True := Svc.wp_throw

@[simp] theorem wp_demand {x : Except DomainError α} {Q : Trace → α → Prop} :
    Svc.wp G tr (demand x) Q ↔ ∀ a, x = .ok a → Q tr a := by
  unfold demand
  rw [Svc.wp_ofExcept]
  cases x <;> simp [Except.mapError]

@[simp] theorem wp_orFail {x : Except GoError α} {Q : Trace → α → Prop} :
    Svc.wp G tr (orFail x) Q ↔ ∀ a, x = .ok a → Q tr a := Svc.wp_ofExcept

@[simp] theorem wp_orNoRows {e : DomainError} {row : Option α} {Q : Trace → α → Prop} :
    Svc.wp G tr (orNoRows e row) Q ↔ ∀ r, row = some r → Q tr r := by
  cases row <;> simp [orNoRows]

theorem wp_ext {x : Ext} {Q : Trace → x.Result → Prop} (h : G.asks tr (.ext x))
    (hQ : ∀ r, G.gets tr (.ext x) r → Q (tr ++ [⟨.ext x, r⟩]) r) : Svc.wp G tr (ext x) Q :=
  Svc.wp_call.mpr ⟨h, hQ⟩

/-- A promise that is only about what the service behind the check of the role issues. -/
theorem wp_requireRole_map {actor : Actor} {roles : List Role} {x : Service α} {f : α → Payload}
    (hx : Svc.wp G tr x fun _ _ => True) :
    Svc.wp G tr (requireRole actor roles (f <$> x)) fun _ _ => True := by
  unfold requireRole
  split
  · show Svc.wp G tr (x >>= fun a => pure (f a)) _
    rw [Svc.wp_bind]
    refine Svc.wp_mono hx fun tr a _ => ?_
    rw [Svc.wp_pure]
    trivial
  · rw [wp_fail]
    trivial

/-- A promise that is about none of the commands of the transaction around a request. -/
theorem wp_tenantContext_handler {t : UUID} {responder : Responder} {handler : Service Payload}
    (hbegin : ∀ tr, G.asks tr .begin) (hset : ∀ tr, G.asks tr (.sql (.setCurrentTenant t)))
    (hcommit : ∀ tr, G.asks tr .commit) (hrollback : ∀ tr, G.asks tr .rollback)
    (h : ∀ b u, Svc.wp G [⟨.begin, .ok b⟩, ⟨.sql (.setCurrentTenant t), .ok u⟩] handler
      fun _ _ => True) :
    Prog.wp G [] (tenantContext t responder handler) fun _ _ => True := by
  have hback : ∀ (tr : Trace) (a : Outcome), Prog.wp G tr
      (do let _ ← issue .rollback; pure a : Program Outcome) fun _ _ => True :=
    fun tr a => ⟨hrollback tr, fun _ _ => trivial⟩
  unfold tenantContext issue
  rw [Prog.wp_bind, Prog.wp_call]
  refine ⟨hbegin _, fun b _ => ?_⟩
  cases b with
  | error err => exact hback _ _
  | ok b =>
    refine Prog.wp_bind.mpr (Prog.wp_call.mpr ⟨hset _, fun r _ => ?_⟩)
    cases r with
    | error err => exact hback _ _
    | ok u =>
      refine Prog.wp_bind.mpr (Prog.wp_mono (h b u) fun tr r _ => ?_)
      split
      · refine ⟨hcommit _, fun c _ => ?_⟩
        cases c with
        | ok c => trivial
        | error err => exact hback _ _
      · exact hback _ _

end

section

variable {α : Type} {actor : Actor} {e : Endpoint} {tr : Trace} {k : UUID}

/-- Reading is always allowed. -/
theorem wp_reads {x : Service α} {Q : Trace → α → Prop} (hx : ReadsIn actor.tenantID x)
    (hQ : ∀ tr' a, Onward actor.tenantID tr tr' → Q tr' a) :
    Svc.wp (requestContract actor e) tr x Q := by
  refine Svc.wp_of_only hx (fun tr c hc => ?_) (fun evs hevs a => hQ _ a ⟨evs, rfl, hevs⟩)
  cases c with
  | sql q => exact Or.inl hc
  | ext x => trivial
  | begin => exact hc.elim
  | commit => exact hc.elim
  | rollback => exact hc.elim

/-- A report that is found lies under its key, in the tenant. -/
theorem wp_getReport {Q : Trace → ExpenseReport → Prop} (hc : server.clean tr = true)
    (hQ : ∀ tr' r, Onward actor.tenantID tr tr' → ReadReport actor tr' k r → r.reportID = k →
      r.tenantID = actor.tenantID → Q tr' r) :
    Svc.wp (requestContract actor e) tr (ReportRepo.getByID actor.tenantID k) Q := by
  unfold ReportRepo.getByID
  rw [Svc.wp_bind, wp_errorf]
  have hq : (Stmt.getReportByID actor.tenantID k).readsIn actor.tenantID = true := by
    simp [Stmt.readsIn]
  refine wp_sql (Or.inl hq) (fun row hrow => ?_)
  rw [wp_orNoRows]
  rintro r rfl
  obtain ⟨d, c, o, hd⟩ := hrow
  have hr := (reportRows.mem_of_first (Except.ok.inj hd)).2
  simp only [reportIs, Bool.and_eq_true, decide_eq_true_eq] at hr
  refine hQ _ r ⟨_, rfl, ?_⟩ (Engine.seen_append.mpr (Or.inr ⟨rfl, hc⟩)) hr.1.2 hr.1.1
  intro ev hev
  rw [List.mem_singleton.mp hev]
  exact hq

theorem wp_hasApprover {Q : Trace → Bool → Prop} (hc : server.clean tr = true)
    (hQ : ∀ tr' found, Onward actor.tenantID tr tr' →
      server.Seen tr' (.hasApprover actor.tenantID) found → Q tr' found) :
    Svc.wp (requestContract actor e) tr (MembershipRepo.hasApprover actor.tenantID) Q := by
  unfold MembershipRepo.hasApprover
  rw [wp_errorf]
  have hq : (Stmt.hasApprover actor.tenantID).readsIn actor.tenantID = true := by
    simp [Stmt.readsIn]
  refine wp_sql (Or.inl hq) (fun found _ => ?_)
  refine hQ _ found ⟨_, rfl, ?_⟩ (Engine.seen_append.mpr (Or.inr ⟨rfl, hc⟩))
  intro ev hev
  rw [List.mem_singleton.mp hev]
  exact hq

/-- The check every edit starts with. -/
theorem wp_editableReport {Q : Trace → ExpenseReport → Prop} (hc : server.clean tr = true)
    (hQ : ∀ tr' r, Onward actor.tenantID tr tr' → DraftSeen actor tr' k → Q tr' r) :
    Svc.wp (requestContract actor e) tr (editableReport actor k) Q := by
  unfold editableReport
  simp only [Svc.wp_bind, wp_demand, Svc.wp_pure]
  refine wp_getReport hc (fun tr' r ht hr _ _ _ ha _ he => ?_)
  exact hQ tr' r ht ⟨r, hr, owner_of_canModify ha, draft_of_canEdit he⟩

end

/-! ## Repository operations that write items -/

section

variable {actor : Actor} {e : Endpoint} {tr : Trace} {k : UUID}

/-- From here on the request may edit report `k`. -/
def MayEdit (actor : Actor) (e : Endpoint) (k : UUID) (tr : Trace) : Prop :=
  ∀ evs q, q.editsIn actor.tenantID k = true → MayWrite actor (tr ++ evs) e q

theorem MayEdit.append (h : MayEdit actor e k tr) (evs : Trace) : MayEdit actor e k (tr ++ evs) := by
  intro evs' q hq
  rw [List.append_assoc]
  exact h _ q hq

theorem MayEdit.asks (h : MayEdit actor e k tr) {q : Stmt}
    (hq : q.editsIn actor.tenantID k = true) (hp : Prepared tr q) : Asks actor e tr (.sql q) := by
  have hm := h [] q hq
  rw [List.append_nil] at hm
  exact Or.inr ⟨hm, hp⟩

theorem answered_append {q : Stmt} {r : q.Result} : Answered (tr ++ [⟨.sql q, .ok r⟩]) q :=
  ⟨r, List.mem_append_right _ (List.mem_singleton_self _)⟩

theorem Answered.append {q : Stmt} (h : Answered tr q) (evs : Trace) : Answered (tr ++ evs) q := by
  obtain ⟨r, hr⟩ := h
  exact ⟨r, List.mem_append_left _ hr⟩

/-- An item is looked up: what was found has been seen. -/
theorem wp_getItem {i : UUID} {Q : Trace → ExpenseItem → Prop} (hc : server.clean tr = true)
    (hQ : ∀ tr' x, Onward actor.tenantID tr tr' →
      server.Seen tr' (.getExpenseItemByID actor.tenantID k i) (some x) → Q tr' x) :
    Svc.wp (requestContract actor e) tr (ItemRepo.getByID actor.tenantID k i) Q := by
  unfold ItemRepo.getByID
  rw [Svc.wp_bind, wp_errorf]
  have hq : (Stmt.getExpenseItemByID actor.tenantID k i).readsIn actor.tenantID = true := by
    simp [Stmt.readsIn]
  refine wp_sql (Or.inl hq) (fun row _ => ?_)
  rw [wp_orNoRows]
  rintro x rfl
  refine hQ _ x ⟨_, rfl, ?_⟩ (Engine.seen_append.mpr (Or.inr ⟨rfl, hc⟩))
  intro ev hev
  rw [List.mem_singleton.mp hev]
  exact hq

theorem mayEdit_of_draftSeen (he : e.edits = some k) (h : DraftSeen actor tr k) :
    MayEdit actor e k tr := fun evs _ hq => .edit he (h.append evs) hq

theorem mayEdit_of_created {params : CreateReportParams} (h : Created actor tr k) :
    MayEdit actor (.createReport params) k tr := fun evs _ hq => .copy (h.append evs) hq

theorem Onward.mayEdit {tr' : Trace} (h : Onward actor.tenantID tr tr')
    (hm : MayEdit actor e k tr) : MayEdit actor e k tr' := by
  obtain ⟨evs, rfl, _⟩ := h
  exact hm.append evs

variable {Q : Trace → ExpenseItem → Prop}

theorem wp_itemCreate {expenseDate : Date} {amount : Int} {categoryID : UUID}
    {description : String} (hm : MayEdit actor e k tr) (ho : owes tr = [])
    (hQ : ∀ evs i, owes (tr ++ evs) = [] → Q (tr ++ evs) i) :
    Svc.wp (requestContract actor e) tr
      (ItemRepo.create actor.tenantID k expenseDate amount categoryID description) Q := by
  unfold ItemRepo.create
  simp only [Svc.wp_bind, wp_errorf, Svc.wp_pure]
  refine wp_sql (hm.asks agree_self trivial) (fun i _ => ?_)
  refine wp_sql ((hm.append _).asks agree_self trivial) (fun _ _ => ?_)
  rw [List.append_assoc]
  refine hQ _ i ?_
  rw [← List.append_assoc, owes_append, owes_append, ho]
  simp [account, Stmt.settles, Stmt.incurs]

theorem wp_itemUpdate {item : ExpenseItem} (ht : item.tenantID = actor.tenantID)
    (hk : item.reportID = k) (hm : MayEdit actor e k tr) (ho : owes tr = [])
    (hQ : ∀ evs i, owes (tr ++ evs) = [] → Q (tr ++ evs) i) :
    Svc.wp (requestContract actor e) tr (ItemRepo.update item) Q := by
  unfold ItemRepo.update
  simp only [Svc.wp_bind, wp_errorf, Svc.wp_pure, wp_orNoRows]
  refine wp_sql (hm.asks (by simp [Stmt.editsIn, ht, hk]) trivial) (fun row hrow => ?_)
  rintro i rfl
  -- The row that comes back is a version of the row the statement selected.
  obtain ⟨ws, hws, hall⟩ := hrow
  have hi : i.tenantID = actor.tenantID ∧ i.reportID = k := by
    have hmem : i ∈ ws.filterMap itemRows.unwrap := List.mem_of_mem_head? hws.symm
    obtain ⟨v, hv, hvi⟩ := List.mem_filterMap.mp hmem
    obtain ⟨snap, cur, o, key, happ⟩ := hall v hv
    obtain ⟨x, y, _, hc, hs, rfl⟩ := itemRows.apply_eq_some happ
    obtain ⟨_, rfl⟩ := setItem_ok hs
    rw [itemRows.unwrap_wrap] at hvi
    cases hvi
    simp only [itemOf, Bool.and_eq_true, decide_eq_true_eq] at hc
    exact ⟨hc.1.1.1.1.trans ht, hc.1.1.1.2.trans hk⟩
  rw [hi.1, hi.2]
  refine wp_sql ((hm.append _).asks agree_self trivial) (fun _ _ => ?_)
  rw [List.append_assoc]
  refine hQ _ i ?_
  rw [← List.append_assoc, owes_append, owes_append, ho]
  simp [account, Stmt.settles, Stmt.incurs, hk]

theorem wp_itemSoftDelete {i : UUID} {Q : Trace → Unit → Prop} (hm : MayEdit actor e k tr)
    (ho : owes tr = []) (hQ : ∀ evs, owes (tr ++ evs) = [] → Q (tr ++ evs) ()) :
    Svc.wp (requestContract actor e) tr (ItemRepo.softDelete actor.tenantID k i) Q := by
  unfold ItemRepo.softDelete
  simp only [Svc.wp_bind, wp_errorf]
  refine wp_sql (hm.asks agree_self trivial) (fun _ _ => ?_)
  refine wp_sql ((hm.append _).asks agree_self answered_append) (fun _ _ => ?_)
  refine wp_sql (((hm.append _).append _).asks agree_self trivial) (fun _ _ => ?_)
  rw [List.append_assoc, List.append_assoc]
  refine hQ _ ?_
  rw [← List.append_assoc, ← List.append_assoc, owes_append, owes_append, owes_append, ho]
  simp [account, Stmt.settles, Stmt.incurs]

end

/-! ## Services that write -/

section

variable {actor : Actor} {tr : Trace} {k i a : UUID}

/-- What is shown of every service: from a fresh transaction it keeps the contract. -/
def Keeps {α : Type} (actor : Actor) (e : Endpoint) (x : Service α) : Prop :=
  ∀ tr, server.clean tr = true → owes tr = [] →
    Svc.wp (requestContract actor e) tr x fun tr' _ => owes tr' = []

theorem keeps_of_reads {α : Type} {e : Endpoint} {x : Service α} (hx : ReadsIn actor.tenantID x) :
    Keeps actor e x := by
  intro tr _ ho
  refine wp_reads hx (fun tr' _ ht => ?_)
  rw [ht.owes, ho]

theorem keeps_createItem {params : CreateItemParams} :
    Keeps actor (.createItem k params) (ItemService.createItem actor k params) := by
  intro tr hc ho
  unfold ItemService.createItem
  simp only [Svc.wp_bind, wp_errorf, wp_demand]
  refine wp_editableReport hc (fun tr₁ r h₁ hd _ _ => ?_)
  refine wp_reads looks_getCategory.reads (fun tr₂ _ h₂ => ?_)
  have hd₂ := h₂.draftSeen hd
  refine wp_itemCreate (mayEdit_of_draftSeen rfl hd₂) (by rw [h₂.owes, h₁.owes, ho])
    (fun evs i hev => ?_)
  exact wp_reads looks_buildItemDTO.reads (fun tr₃ _ h₃ => by rw [h₃.owes, hev])

theorem keeps_updateItem {params : UpdateItemParams} :
    Keeps actor (.updateItem k i params) (ItemService.updateItem actor k i params) := by
  intro tr hc ho
  unfold ItemService.updateItem ItemRepo.getByID
  simp only [Svc.wp_bind, wp_errorf, wp_demand, wp_orNoRows]
  refine wp_editableReport hc (fun tr₁ r h₁ hd => ?_)
  have hq : (Stmt.getExpenseItemByID actor.tenantID k i).readsIn actor.tenantID = true := by
    simp [Stmt.readsIn]
  refine wp_sql (Or.inl hq) (fun row hrow => ?_)
  rintro item rfl _ _
  obtain ⟨d, c, o, hd'⟩ := hrow
  have hi := (itemRows.mem_of_first (Except.ok.inj hd')).2
  simp only [itemOf, Bool.and_eq_true, decide_eq_true_eq] at hi
  have h₂ : Onward actor.tenantID tr₁ (tr₁ ++ [⟨.sql (.getExpenseItemByID actor.tenantID k i),
      .ok (some item)⟩]) := ⟨_, rfl, fun ev hev => by rw [List.mem_singleton.mp hev]; exact hq⟩
  refine wp_reads looks_getCategory.reads (fun tr₃ _ h₃ => ?_)
  have hd₃ := h₃.draftSeen (h₂.draftSeen hd)
  refine wp_itemUpdate hi.1.1.1 hi.1.1.2 (mayEdit_of_draftSeen rfl hd₃)
    (by rw [h₃.owes, h₂.owes, h₁.owes, ho]) (fun evs _ hev => ?_)
  exact wp_reads looks_buildItemDTO.reads (fun tr₄ _ h₄ => by rw [h₄.owes, hev])

theorem keeps_deleteItem :
    Keeps actor (.deleteItem k i) (ItemService.deleteItem actor k i) := by
  intro tr hc ho
  unfold ItemService.deleteItem
  simp only [Svc.wp_bind]
  refine wp_editableReport hc (fun tr₁ r h₁ hd => ?_)
  refine wp_reads looks_getItem.reads (fun tr₂ _ h₂ => ?_)
  exact wp_itemSoftDelete (mayEdit_of_draftSeen rfl (h₂.draftSeen hd))
    (by rw [h₂.owes, h₁.owes, ho]) (fun _ hev => hev)

theorem keeps_uploadAttachment {upload : FileUpload} :
    Keeps actor (.uploadAttachment k i upload)
      (AttachmentService.uploadAttachment actor k i upload) := by
  intro tr hc ho
  unfold AttachmentService.uploadAttachment
  simp only [Svc.wp_bind]
  refine wp_editableReport hc (fun tr₁ r h₁ hd => ?_)
  refine wp_getItem (by rw [h₁.clean, hc]) (fun tr₂ x h₂ hx => ?_)
  split
  · exact wp_fail.mpr trivial
  · split
    · exact wp_fail.mpr trivial
    · split
      · exact wp_fail.mpr trivial
      · simp only [Svc.wp_bind, wp_errorf, wp_orFail, Svc.wp_pure]
        refine wp_reads readsIn_ext (fun tr₃ attachmentID h₃ => ?_)
        refine wp_reads readsIn_ext (fun tr₄ stored h₄ _ _ => ?_)
        have hd₄ := h₄.draftSeen (h₃.draftSeen (h₂.draftSeen hd))
        unfold AttachmentRepo.create
        rw [wp_errorf]
        have hx₄ := (h₃.trans h₄).seen hx
        refine wp_sql ((mayEdit_of_draftSeen rfl hd₄).asks agree_self ⟨x, hx₄⟩)
          (fun _ _ => ?_)
        rw [owes_append, h₄.owes, h₃.owes, h₂.owes, h₁.owes, ho]
        rfl

theorem keeps_deleteAttachment :
    Keeps actor (.deleteAttachment k i a) (AttachmentService.deleteAttachment actor k i a) := by
  intro tr hc ho
  unfold AttachmentService.deleteAttachment
  simp only [Svc.wp_bind]
  refine wp_editableReport hc (fun tr₁ r h₁ hd => ?_)
  refine wp_reads looks_getAttachment.reads (fun tr₂ _ h₂ => ?_)
  unfold AttachmentRepo.softDelete
  rw [wp_errorf]
  refine wp_sql ((mayEdit_of_draftSeen rfl (h₂.draftSeen hd)).asks agree_self
    trivial) (fun _ _ => ?_)
  rw [owes_append, h₂.owes, h₁.owes, ho]
  rfl

theorem keeps_deleteReport :
    Keeps actor (.deleteReport k) (ReportService.deleteReport actor k) := by
  intro tr hc ho
  unfold ReportService.deleteReport ReportRepo.softDelete
  simp only [Svc.wp_bind, wp_demand, wp_errorf]
  refine wp_getReport hc (fun tr₁ r h₁ hr _ _ _ ha => ?_)
  refine wp_reads readsIn_ext (fun tr₂ now h₂ r' hdel => ?_)
  have hd : DraftSeen actor tr₂ k :=
    h₂.draftSeen ⟨r, hr, owner_of_canModify ha, draft_of_delete hdel⟩
  refine wp_sql (Or.inr ⟨.delete rfl hd agree_self, trivial⟩) (fun _ _ => ?_)
  refine wp_sql (Or.inr ⟨.delete rfl (hd.append _) agree_self, trivial⟩)
    (fun _ _ => ?_)
  refine wp_sql (Or.inr ⟨.delete rfl ((hd.append _).append _) agree_self,
    answered_append.append _, answered_append⟩) (fun _ _ => ?_)
  rw [owes_append, owes_append, owes_append, h₂.owes, h₁.owes, ho]
  simp [account, Stmt.settles, Stmt.incurs]

theorem keeps_updateReport {params : UpdateReportParams} :
    Keeps actor (.updateReport k params) (ReportService.updateReport actor k params) := by
  intro tr hc ho
  unfold ReportService.updateReport ReportRepo.update
  simp only [Svc.wp_bind, wp_demand]
  refine wp_getReport hc (fun tr₁ r h₁ hr _ _ _ ha _ he => ?_)
  split
  · exact wp_fail.mpr trivial
  · rename_i hv
    simp only [Svc.wp_bind, wp_errorf, wp_orNoRows]
    refine wp_sql (Or.inr ⟨.update hr (owner_of_canModify ha) (draft_of_canEdit he)
      (not_not.mp hv) (by rw [h₁.clean, hc]), trivial⟩) (fun row _ r' _ => ?_)
    refine wp_reads looks_buildDetail.reads (fun tr₂ _ h₂ => ?_)
    rw [h₂.owes, owes_append, h₁.owes, ho]
    rfl

/-- Writing a status back, and showing what came of it. -/
theorem wp_updateStatus {α : Type} {e : Endpoint} {v : Timestamp} {r r' : ExpenseReport}
    {show_ : ExpenseReport → Service α} (hshow : ∀ r, ReadsIn actor.tenantID (show_ r))
    (hv : e.version = some (k, v)) (hr : ReadReport actor tr k r) (hrv : r.updatedAt = v)
    (hT : Transition actor e r r')
    (hp : r'.status = .submitted → server.Seen tr (.hasApprover r'.tenantID) true)
    (hc : server.clean tr = true) (ho : owes tr = []) :
    Svc.wp (requestContract actor e) tr (ReportRepo.updateStatus r' >>= show_)
      fun tr' _ => owes tr' = [] := by
  unfold ReportRepo.updateStatus
  simp only [Svc.wp_bind, wp_errorf, wp_orNoRows]
  refine wp_sql (Or.inr ⟨.status hv hr hrv hT hc, hp⟩) (fun row _ r'' _ => ?_)
  refine wp_reads (hshow r'') (fun tr₂ _ h₂ => ?_)
  rw [h₂.owes, owes_append, ho]
  rfl

theorem keeps_submitReport {v : Timestamp} :
    Keeps actor (.submitReport k v) (ReportService.submitReport actor k v) := by
  intro tr hc ho
  unfold ReportService.submitReport
  simp only [Svc.wp_bind, wp_demand]
  refine wp_getReport hc (fun tr₁ r h₁ hr _ ht _ ha => ?_)
  split
  · exact wp_fail.mpr trivial
  · rename_i hv
    have hu := owner_of_canModify ha
    simp only [Svc.wp_bind, wp_errorf, wp_demand]
    refine wp_hasApprover (by rw [h₁.clean, hc]) (fun tr₂ hasApprover h₂ hfound => ?_)
    refine wp_reads looks_listItems.reads (fun tr₃ items h₃ => ?_)
    refine wp_reads readsIn_ext (fun tr₄ now h₄ r' hsub => ?_)
    have h := ((h₁.trans h₂).trans h₃).trans h₄
    have hr₄ := ((h₂.trans h₃).trans h₄).readReport hr
    have hfound₄ : r'.status = .submitted → server.Seen tr₄ (.hasApprover r'.tenantID) true := by
      obtain ⟨_, _, rfl, rfl⟩ := submit_ok hsub
      exact fun _ => ht ▸ (h₃.trans h₄).seen hfound
    rw [← Svc.wp_bind]
    exact wp_updateStatus (fun _ => looks_buildDetail.reads) rfl hr₄ (not_not.mp hv)
      (.submit hu hsub) hfound₄ (by rw [h.clean, hc]) (by rw [h.owes, ho])

/-- Only one transition leads to submitted. -/
theorem Transition.submitted {e : Endpoint} {r r' : ExpenseReport} (h : Transition actor e r r')
    (hs : r'.status = .submitted) : ∃ k v, e = .submitReport k v := by
  cases h with
  | submit hu h => exact ⟨_, _, rfl⟩
  | approve h =>
    obtain ⟨_, _, rfl⟩ := approve_ok h
    cases hs
  | reject h =>
    obtain ⟨_, _, _, rfl⟩ := reject_ok h
    cases hs
  | pay h =>
    obtain ⟨_, _, rfl⟩ := markAsPaid_ok h
    cases hs

/-- The three decisions differ in the transition only. -/
theorem keeps_decideOn {e : Endpoint} {v : Timestamp}
    {authorize : Actor → ExpenseReport → Except DomainError Unit}
    {transition : Timestamp → ExpenseReport → Except DomainError ExpenseReport}
    (he : e.version = some (k, v)) (hn : ∀ k v, e ≠ .submitReport k v)
    (hT : ∀ now r r', transition now r = .ok r' → Transition actor e r r') :
    Keeps actor e (WorkflowService.decideOn actor k v authorize transition) := by
  intro tr hc ho
  unfold WorkflowService.decideOn
  simp only [Svc.wp_bind, wp_demand]
  refine wp_getReport hc (fun tr₁ r h₁ hr _ _ _ _ => ?_)
  split
  · exact wp_fail.mpr trivial
  · rename_i hv
    simp only [Svc.wp_bind, wp_demand]
    refine wp_reads readsIn_ext (fun tr₂ now h₂ r' htr => ?_)
    have htrans := hT now r r' htr
    have hsub : r'.status = .submitted → server.Seen tr₂ (.hasApprover r'.tenantID) true := by
      intro hs
      obtain ⟨k', v', he'⟩ := htrans.submitted hs
      exact absurd he' (hn k' v')
    rw [← Svc.wp_bind]
    exact wp_updateStatus (fun _ => looks_buildWorkflowDetail.reads) he (h₂.readReport hr)
      (not_not.mp hv) htrans hsub (by rw [h₂.clean, h₁.clean, hc])
      (by rw [h₂.owes, h₁.owes, ho])

theorem looks_checkReference {reference : Option UUID} :
    Looks actor.tenantID (ReportService.checkReference actor reference) := by
  cases reference with
  | none => exact looks_pure
  | some reference =>
    refine Svc.only_bind looks_getReport fun _ => ?_
    split
    · exact looks_fail
    · split
      · exact looks_fail
      · exact looks_pure

theorem wp_copyItems {params : CreateReportParams} {report : ExpenseReport}
    {reference : Option UUID} (hcr : Created actor tr report.reportID) (ho : owes tr = []) :
    Svc.wp (requestContract actor (.createReport params)) tr
      (ReportService.copyItems actor report reference) fun tr' _ => owes tr' = [] := by
  cases reference with
  | none => exact Svc.wp_pure.mpr ho
  | some reference =>
    unfold ReportService.copyItems
    simp only [Svc.wp_bind, wp_errorf]
    refine wp_reads looks_listItems.reads (fun tr₁ refItems h₁ => ?_)
    have hm₁ := h₁.mayEdit (@mayEdit_of_created actor tr _ params hcr)
    refine Svc.wp_mono (Svc.wp_each (I := fun tr => owes tr = [] ∧
      MayEdit actor (.createReport params) report.reportID tr) refItems ?_
      ⟨by rw [h₁.owes, ho], hm₁⟩) ?_
    · rintro item _ tr₂ ⟨ho₂, hm₂⟩
      unfold ReportService.copyItem
      rw [wp_errorf]
      exact wp_itemCreate hm₂ ho₂ (fun evs _ hev => ⟨hev, hm₂.append evs⟩)
    · rintro tr₃ _ ⟨ho₃, _⟩
      exact wp_reads looks_getReport.reads (fun tr₄ _ h₄ => by rw [h₄.owes, ho₃])

theorem keeps_createReport {params : CreateReportParams} :
    Keeps actor (.createReport params) (ReportService.createReport actor params) := by
  intro tr hc ho
  unfold ReportService.createReport ReportRepo.create
  simp only [Svc.wp_bind, wp_errorf]
  refine wp_reads looks_checkReference.reads (fun tr₁ _ h₁ => ?_)
  refine wp_sql (Or.inr ⟨.create, trivial⟩) (fun report _ => ?_)
  refine Svc.wp_mono (wp_copyItems ⟨_, report, by simp, rfl, rfl⟩ ?_) (fun tr₂ _ ho₂ => ?_)
  · rw [owes_append, h₁.owes, ho]
    rfl
  · exact wp_reads looks_buildDetail.reads (fun tr₃ _ h₃ => by rw [h₃.owes, ho₂])

end

end ExpenseSaas
