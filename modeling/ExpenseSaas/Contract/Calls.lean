import ExpenseSaas.Contract.Auth

/-!
# Every call keeps its contract

`call_keeps` joins the contracts of requests and of authentication calls, and
`Reachable` carries them through every run. What is used of them from here on is
`ReportChange`, `ItemChange` and `AttachmentChange`: whenever a session of a run
writes to one of these tables, which endpoint it runs, what it has read by then,
and how the new row comes from the current one.
-/

namespace ExpenseSaas

open ReadCommitted Sql

/-- What a call promises about the commands it issues. -/
def CallAsks : Call → Trace → Command → Prop
  | .tenant actor e, tr, c => Asks actor e tr c
  | call, tr, c => AuthAsks call tr c

/-- What has happened by the time a call returns a result. -/
def CallDone : Call → Trace → Outcome → Prop
  | .tenant _ _, tr, a => ∀ p, a = .ok p →
      ∃ r, (⟨.commit, r⟩ : Event Command Command.Resp) ∈ tr
  | call, tr, a => ∀ p, a = .ok p → Succeeded tr call

section

variable {actor : Actor} {e : Endpoint}

theorem keeps_map {α β : Type} {x : Service α} {f : α → β} (h : Keeps actor e x) :
    Keeps actor e (f <$> x) := by
  intro tr hc ho
  show Svc.wp _ tr (x >>= fun a => pure (f a)) _
  rw [Svc.wp_bind]
  exact Svc.wp_mono (h tr hc ho) fun _ _ h => Svc.wp_pure.mpr h

theorem keeps_service : Keeps actor e (e.service actor) := by
  cases e with
  | getMe => exact keeps_map (keeps_of_reads reads_getMe)
  | getDashboard => exact keeps_map (keeps_of_reads reads_getDashboard)
  | listCategories => exact keeps_map (keeps_of_reads reads_listCategories)
  | listMyReports params => exact keeps_map (keeps_of_reads reads_listMyReports)
  | createReport params => exact keeps_map keeps_createReport
  | getReport k => exact keeps_map (keeps_of_reads reads_getReportService)
  | updateReport k params => exact keeps_map keeps_updateReport
  | deleteReport k => exact keeps_map keeps_deleteReport
  | submitReport k v => exact keeps_map keeps_submitReport
  | createItem k params => exact keeps_map keeps_createItem
  | updateItem k i params => exact keeps_map keeps_updateItem
  | deleteItem k i => exact keeps_map keeps_deleteItem
  | uploadAttachment k i upload => exact keeps_map keeps_uploadAttachment
  | listAttachments k i => exact keeps_map (keeps_of_reads reads_listAttachmentsService)
  | getAttachmentDownload k i a => exact keeps_map (keeps_of_reads reads_generatePresignedURL)
  | getAttachmentPreview k i a => exact keeps_map (keeps_of_reads reads_generatePresignedURL)
  | deleteAttachment k i a => exact keeps_map keeps_deleteAttachment
  | listPendingReports params => exact keeps_map (keeps_of_reads reads_listPendingReports)
  | listProcessedReports params => exact keeps_map (keeps_of_reads reads_listProcessedReports)
  | approveReport k comment v => exact keeps_map (keeps_decideOn rfl nofun fun _ _ _ h => .approve h)
  | rejectReport k reason v hle => exact keeps_map (keeps_decideOn rfl nofun fun _ _ _ h => .reject h)
  | listPayableReports params => exact keeps_map (keeps_of_reads reads_listPayableReports)
  | markReportAsPaid k v => exact keeps_map (keeps_decideOn rfl nofun fun _ _ _ h => .pay h)
  | listAllReports params => exact keeps_map (keeps_of_reads reads_listAllReports)
  | listTenantMembers => exact keeps_map (keeps_of_reads reads_listTenantMembers)
  | getTenant => exact keeps_map (keeps_of_reads reads_getTenantService)

/-- The transaction of a request commits only results, never errors. -/
theorem wp_tenantContext {responder : Responder} {handler : Service Payload}
    (h : Keeps actor e handler) :
    Prog.wp (requestContract actor e) [] (tenantContext actor.tenantID responder handler)
      (CallDone (.tenant actor e)) := by
  have herror : ∀ (tr : Trace) (err : GoError),
      Prog.wp (requestContract actor e) tr
        (do let _ ← issue .rollback; pure (.error err) : Program Outcome)
        (CallDone (.tenant actor e)) := fun tr err => ⟨trivial, fun _ _ _ hp => nomatch hp⟩
  have hset : (Stmt.setCurrentTenant actor.tenantID).readsIn actor.tenantID = true := by
    simp [Stmt.readsIn]
  unfold tenantContext issue
  rw [Prog.wp_bind, Prog.wp_call]
  refine ⟨rfl, fun b _ => ?_⟩
  cases b with
  | error err => exact herror _ _
  | ok b =>
    refine Prog.wp_bind.mpr (Prog.wp_call.mpr ?_)
    refine ⟨Or.inl hset, fun r _ => ?_⟩
    cases r with
    | error err => exact herror _ _
    | ok u =>
      refine Prog.wp_bind.mpr (Prog.wp_mono (h _ ?_ ?_) (fun tr r hr => ?_))
      · rfl
      · rfl
      · split
        · rename_i hs
          cases r with
          | error err => exact absurd hs (Nat.not_lt.mpr (responder.refuses err))
          | ok p =>
            refine ⟨hr p rfl, fun c _ => ?_⟩
            cases c with
            | ok c => exact fun _ _ => ⟨.ok c, by simp⟩
            | error err => exact ⟨trivial, fun _ _ _ _ => ⟨.error err, by simp⟩⟩
        · rename_i hs
          refine ⟨trivial, fun _ _ p hp => ?_⟩
          subst hp
          exact absurd (show (200 : Nat) < 400 by decide) hs

theorem keeps_requireRole {roles : List Role} {x : Service Payload} (h : Keeps actor e x) :
    Keeps actor e (requireRole actor roles x) := by
  intro tr hc ho
  unfold requireRole
  split
  · exact h tr hc ho
  · exact wp_fail.mpr trivial

end

theorem authKeeps_run {α : Type} {call : Call} {x : Service α} {f : α → Payload}
    (h : AuthKeeps call x) : Prog.wp (authContract call) [] (f <$> x : Service Payload).run
      fun tr a => ∀ p, a = .ok p → Succeeded tr call := by
  show Svc.wp (authContract call) [] (x >>= fun a => pure (f a)) fun tr _ => Succeeded tr call
  rw [Svc.wp_bind]
  exact Svc.wp_mono h fun _ _ h => Svc.wp_pure.mpr h

/-- **The code of every call keeps the call's contract.** -/
theorem call_keeps (call : Call) :
    Prog.wp (server.contract (CallAsks call)) [] (server.code call) (CallDone call) := by
  cases call with
  | tenant actor e => exact wp_tenantContext (keeps_requireRole keeps_service)
  | signup params => exact authKeeps_run authKeeps_signup
  | login email password => exact authKeeps_run authKeeps_login
  | refreshToken token => exact authKeeps_run authKeeps_refreshToken
  | logout token => exact authKeeps_run authKeeps_logout
  | requestPasswordReset email => exact authKeeps_run authKeeps_requestPasswordReset
  | executePasswordReset token password => exact authKeeps_run authKeeps_executePasswordReset

/-! ## In every run -/

/-- What a call may write. -/
inductive CallMayWrite (tr : Trace) : Call → Stmt → Prop where
  | request {actor e q} : MayWrite actor tr e q → CallMayWrite tr (.tenant actor e) q
  | auth {call q} : AuthMayWrite tr call q → CallMayWrite tr call q

section

variable {C : World server → Action server → Prop} {d₀ : Database} {w : World server} {i : Nat}
  {s : Session server}

/-- What a session has issued, its call may issue. -/
theorem asked (h : Reachable C (.init d₀) w) (hs : w.sessions[i]? = some s) {c : Command}
    {k : Command.Resp c → Program Outcome} (hp : s.prog = .exec c k) : CallAsks s.call s.trace c :=
  h.asked (fun _ c _ => call_keeps c) hs hp

/-- What a session has returned, it has done. -/
theorem returned (h : Reachable C (.init d₀) w) (hs : w.sessions[i]? = some s) {a : Outcome}
    (hp : s.prog = .ret a) : CallDone s.call s.trace a :=
  h.returned (fun _ c _ => call_keeps c) hs hp

theorem not_reads_of_writes {q : Stmt} {snap cur : Database} {clock o : Oracle} {v : Version}
    (h : q.sem.Writes snap cur clock o v) : ¬ server.reads q = true := by
  intro hr
  obtain ⟨read, hq⟩ := Engine.query_of_reads hr
  have hq : q.sem = .query read := hq
  rw [hq] at h
  exact Sem.writes_query h

/-- What a session writes, its call may write. -/
theorem may_write (h : Reachable C (.init d₀) w) (hs : w.sessions[i]? = some s) {q : Stmt}
    {t : Txn server} {v : Version} (hv : Writing w.db (w.others i) s q t v) :
    CallMayWrite s.trace s.call q := by
  obtain ⟨k, hp⟩ := hv.prog
  obtain ⟨snap, o, hw⟩ := hv.writes
  have hask := asked h hs hp
  have hr := not_reads_of_writes hw
  cases hcall : s.call with
  | tenant actor e =>
    rw [hcall] at hask
    exact .request (hask.resolve_left fun hq => hr (reads_of_readsIn hq)).1
  | _ =>
    rw [hcall] at hask
    exact .auth (hask.resolve_left hr)

end

/-- What comes before what a session writes. -/
theorem prepared {C : World server → Action server → Prop} {d₀ : Database} {w : World server}
    {i : Nat} {s : Session server} (h : Reachable C (.init d₀) w) (hs : w.sessions[i]? = some s)
    {q : Stmt} {t : Txn server} {v : Version} (hv : Writing w.db (w.others i) s q t v) :
    Prepared s.trace q := by
  obtain ⟨k, hp⟩ := hv.prog
  obtain ⟨snap, o, hw⟩ := hv.writes
  have hask := asked h hs hp
  have hr := not_reads_of_writes hw
  cases hcall : s.call with
  | tenant actor e =>
    rw [hcall] at hask
    exact (hask.resolve_left fun hq => hr (reads_of_readsIn hq)).2
  | _ =>
    rw [hcall] at hask
    have hmay := hask.resolve_left hr
    cases hmay <;> trivial

/-! ## Changes to reports, items and attachments -/

/-- Why a request may change what belongs to report `k`. -/
inductive Permit (actor : Actor) (tr : Trace) (k : UUID) : Endpoint → Prop where
  | edit {e} : e.edits = some k → DraftSeen actor tr k → Permit actor tr k e
  | delete {e} : e.deletes = some k → DraftSeen actor tr k → Permit actor tr k e
  | copy {params} : Created actor tr k → Permit actor tr k (.createReport params)

/-- How the row a request writes to `expense_reports` comes about. -/
inductive ReportChange (actor : Actor) (tr : Trace) (snap cur : Database) (clock o : Oracle) :
    Endpoint → ExpenseReport → Prop where
  | create {params r} : cur.reports.find r.reportID = none →
      reportRow ⟨actor.tenantID, actor.userID, params.title, params.periodStart, params.periodEnd,
        params.referenceReportID⟩ cur clock o = .ok r →
      ReportChange actor tr snap cur clock o (.createReport params) r
  | update {k params r₀ x r} : ReadReport actor tr k r₀ → r₀.userID = actor.userID →
      r₀.status = .draft → r₀.updatedAt = params.updatedAt → server.clean tr = true →
      x ∈ cur.reports.rows → reportIs r₀.tenantID r₀.reportID x = true →
      x.updatedAt = r₀.updatedAt →
      setReport ⟨r₀.tenantID, r₀.reportID, params.title, params.periodStart, params.periodEnd,
        r₀.updatedAt⟩ snap cur clock x = .ok r →
      ReportChange actor tr snap cur clock o (.updateReport k params) r
  | status {e k v r₀ r₁ x r} : e.version = some (k, v) → ReadReport actor tr k r₀ →
      r₀.updatedAt = v → Transition actor e r₀ r₁ → server.clean tr = true →
      x ∈ cur.reports.rows → reportIs r₁.tenantID r₁.reportID x = true →
      x.updatedAt = r₁.updatedAt → setReportStatus (statusParams r₁) snap cur clock x = .ok r →
      ReportChange actor tr snap cur clock o e r
  | delete {e k x} : e.deletes = some k → DraftSeen actor tr k → x ∈ cur.reports.rows →
      reportIs actor.tenantID k x = true → ReportChange actor tr snap cur clock o e
        { x with deletedAt := some clock.now, updatedAt := clock.now }
  | total {e k x r} : Permit actor tr k e → x ∈ cur.reports.rows → x.tenantID = actor.tenantID →
      x.reportID = k → setReportTotalAmount snap cur clock x = .ok r →
      ReportChange actor tr snap cur clock o e r

/-- How the row a request writes to `expense_items` comes about. -/
inductive ItemChange (actor : Actor) (tr : Trace) (snap cur : Database) (clock o : Oracle) :
    Endpoint → ExpenseItem → Prop where
  | create {e p i} : Permit actor tr p.reportID e → p.tenantID = actor.tenantID →
      cur.items.find i.itemID = none → itemRow p cur clock o = .ok i →
      ItemChange actor tr snap cur clock o e i
  | edit {e p x i} : Permit actor tr p.reportID e → p.tenantID = actor.tenantID →
      x ∈ cur.items.rows → itemOf p.tenantID p.reportID x = true →
      setItem p snap cur clock x = .ok i → ItemChange actor tr snap cur clock o e i
  | delete {e k x} : Permit actor tr k e → x ∈ cur.items.rows →
      itemOf actor.tenantID k x = true → ItemChange actor tr snap cur clock o e
        { x with deletedAt := some clock.now, updatedAt := clock.now }

/-- How the row a request writes to `attachments` comes about. -/
inductive AttachmentChange (actor : Actor) (tr : Trace) (snap cur : Database) (clock o : Oracle) :
    Endpoint → Attachment → Prop where
  | create {e p a} : Permit actor tr p.reportID e → p.tenantID = actor.tenantID →
      cur.attachments.find a.attachmentID = none → attachmentRow p cur clock o = .ok a →
      AttachmentChange actor tr snap cur clock o e a
  | delete {e k x} : Permit actor tr k e → x ∈ cur.attachments.rows →
      attachmentOf actor.tenantID k x = true → AttachmentChange actor tr snap cur clock o e
        { x with deletedAt := some clock.now }

section

variable {actor : Actor} {tr : Trace} {e : Endpoint} {q : Stmt} {snap cur : Database}
  {clock o : Oracle}

theorem not_deletesIn_of_editsIn {t t' k k' : UUID} (h : q.editsIn t k = true) :
    ¬ q.deletesIn t' k' = true := by
  intro h'
  cases q <;> simp_all [Stmt.editsIn, Stmt.deletesIn]

/-- What is written to a report, its items or its attachments comes with a permit. -/
theorem permit_of_edit {k : UUID} (h : MayWrite actor tr e q) (hq : q.editsIn actor.tenantID k = true) :
    Permit actor tr k e := by
  have hkey : ∀ k', q.editsIn actor.tenantID k' = true → k' = k := by
    intro k' hk'
    cases q <;> simp_all [Stmt.editsIn]
  cases h with
  | create => cases hq
  | @copy params k' _ hcr hq' =>
    obtain rfl := hkey k' hq'
    exact .copy hcr
  | @edit _ k' _ he hd hq' =>
    obtain rfl := hkey k' hq'
    exact .edit he hd
  | delete he hd hq' => exact absurd hq' (not_deletesIn_of_editsIn hq)
  | update => cases hq
  | status => cases hq

theorem permit_of_delete {k : UUID} (h : MayWrite actor tr e q)
    (hq : q.deletesIn actor.tenantID k = true) :
    e.deletes = some k ∧ DraftSeen actor tr k := by
  cases h with
  | create => cases hq
  | copy hcr hq' => exact absurd hq (not_deletesIn_of_editsIn hq')
  | edit he hd hq' => exact absurd hq (not_deletesIn_of_editsIn hq')
  | @delete _ k' _ he hd hq' =>
    have hk : k' = k := by cases q <;> simp_all [Stmt.deletesIn]
    subst hk
    exact ⟨he, hd⟩
  | update => cases hq
  | status => cases hq

/-- The tenant and the report of a statement that edits. -/
theorem MayWrite.scope (h : MayWrite actor tr e q) :
    (∃ k, q.editsIn actor.tenantID k = true) ∨ (∃ k, q.deletesIn actor.tenantID k = true) ∨
      (∃ p, q = .createReport p) ∨ (∃ p, q = .updateReport p) ∨ ∃ p, q = .updateReportStatus p := by
  cases h with
  | create => exact Or.inr (Or.inr (Or.inl ⟨_, rfl⟩))
  | copy hcr hq => exact Or.inl ⟨_, hq⟩
  | edit he hd hq => exact Or.inl ⟨_, hq⟩
  | delete he hd hq => exact Or.inr (Or.inl ⟨_, hq⟩)
  | update => exact Or.inr (Or.inr (Or.inr (Or.inl ⟨_, rfl⟩)))
  | status => exact Or.inr (Or.inr (Or.inr (Or.inr ⟨_, rfl⟩)))

theorem MayWrite.reportChange {r : ExpenseReport} (h : MayWrite actor tr e q)
    (hw : ReportWrite snap cur clock o q r)
    (hfresh : server.inserts q = true → cur.get (.report r.reportID) = none) :
    ReportChange actor tr snap cur clock o e r := by
  cases hw with
  | create hr =>
    have hnone : cur.reports.find r.reportID = none := by simpa [Database.get] using hfresh rfl
    cases h with
    | create => exact .create hnone hr
    | copy hcr hq => cases hq
    | edit he hd hq => cases hq
    | delete he hd hq => cases hq
  | edit hx hid hv hs =>
    cases h with
    | update hr hu hd hrv hc => exact .update hr hu hd hrv hc hx hid hv hs
    | copy hcr hq => cases hq
    | edit he hd hq => cases hq
    | delete he hd hq => cases hq
  | status hx hid hv hs =>
    cases h with
    | status hver hr hrv hT hc => exact .status hver hr hrv hT hc hx hid hv hs
    | copy hcr hq => cases hq
    | edit he hd hq => cases hq
    | delete he hd hq => cases hq
  | @softDelete t k x hx hid =>
    have hq : (Stmt.softDeleteReport t k).deletesIn actor.tenantID k = true ∧ t = actor.tenantID := by
      cases h with
      | copy hcr hq => cases hq
      | edit he hd hq => cases hq
      | delete he hd hq =>
        simp only [Stmt.deletesIn, Bool.and_eq_true, decide_eq_true_eq] at hq
        simp [Stmt.deletesIn, hq.1]
    obtain ⟨he, hd⟩ := permit_of_delete h hq.1
    exact .delete he hd hx (hq.2 ▸ hid)
  | @total t k x r hx ht hk hs =>
    have hq : (Stmt.updateReportTotalAmount t k).editsIn actor.tenantID k = true ∧
        t = actor.tenantID := by
      cases h with
      | copy hcr hq =>
        simp only [Stmt.editsIn, Bool.and_eq_true, decide_eq_true_eq] at hq
        simp [Stmt.editsIn, hq.1]
      | edit he hd hq =>
        simp only [Stmt.editsIn, Bool.and_eq_true, decide_eq_true_eq] at hq
        simp [Stmt.editsIn, hq.1]
      | delete he hd hq => cases hq
    exact .total (permit_of_edit h hq.1) hx (ht.trans hq.2) hk hs

/-- The tenant of a statement that edits is the actor's. -/
theorem editsIn_of_mayWrite {t k : UUID} (h : MayWrite actor tr e q) (hq : q.editsIn t k = true) :
    t = actor.tenantID := by
  rcases h.scope with ⟨k', hk'⟩ | ⟨k', hk'⟩ | ⟨p, rfl⟩ | ⟨p, rfl⟩ | ⟨p, rfl⟩
  · cases q <;> simp_all [Stmt.editsIn]
  · cases q <;> simp_all [Stmt.editsIn, Stmt.deletesIn]
  · cases hq
  · cases hq
  · cases hq

theorem deletesIn_of_mayWrite {t k : UUID} (h : MayWrite actor tr e q)
    (hq : q.deletesIn t k = true) : t = actor.tenantID := by
  rcases h.scope with ⟨k', hk'⟩ | ⟨k', hk'⟩ | ⟨p, rfl⟩ | ⟨p, rfl⟩ | ⟨p, rfl⟩
  · cases q <;> simp_all [Stmt.editsIn, Stmt.deletesIn]
  · cases q <;> simp_all [Stmt.deletesIn]
  · cases hq
  · cases hq
  · cases hq

/-- A statement that edits report `k` is permitted, and stays in the actor's tenant. -/
theorem MayWrite.editing {t k : UUID} (h : MayWrite actor tr e q) (hq : q.editsIn t k = true) :
    t = actor.tenantID ∧ Permit actor tr k e := by
  obtain rfl := editsIn_of_mayWrite h hq
  exact ⟨rfl, permit_of_edit h hq⟩

theorem MayWrite.deleting {t k : UUID} (h : MayWrite actor tr e q) (hq : q.deletesIn t k = true) :
    t = actor.tenantID ∧ Permit actor tr k e := by
  obtain rfl := deletesIn_of_mayWrite h hq
  obtain ⟨he, hd⟩ := permit_of_delete h hq
  exact ⟨rfl, .delete he hd⟩

theorem MayWrite.itemChange {i : ExpenseItem} (h : MayWrite actor tr e q)
    (hw : ItemWrite snap cur clock o q i)
    (hfresh : server.inserts q = true → cur.get (.item i.itemID) = none) :
    ItemChange actor tr snap cur clock o e i := by
  cases hw with
  | @create p i hi =>
    obtain ⟨ht, hp⟩ := h.editing (t := p.tenantID) (k := p.reportID) agree_self
    exact .create hp ht (by simpa [Database.get] using hfresh rfl) hi
  | @edit p x i hx hid hs =>
    obtain ⟨ht, hp⟩ := h.editing (t := p.tenantID) (k := p.reportID) agree_self
    exact .edit hp ht hx hid hs
  | @softDelete t k j x hx hid hj =>
    obtain ⟨rfl, hp⟩ := h.editing (t := t) (k := k) agree_self
    exact .delete hp hx hid
  | @softDeleteAll t k x hx hid =>
    obtain ⟨rfl, hp⟩ := h.deleting (t := t) (k := k) agree_self
    exact .delete hp hx hid

theorem MayWrite.attachmentChange {a : Attachment} (h : MayWrite actor tr e q)
    (hw : AttachmentWrite snap cur clock o q a)
    (hfresh : server.inserts q = true → cur.get (.attachment a.attachmentID) = none) :
    AttachmentChange actor tr snap cur clock o e a := by
  cases hw with
  | @create p a ha =>
    obtain ⟨ht, hp⟩ := h.editing (t := p.tenantID) (k := p.reportID) agree_self
    exact .create hp ht (by simpa [Database.get] using hfresh rfl) ha
  | @softDelete t k j y x hx hid =>
    obtain ⟨rfl, hp⟩ := h.editing (t := t) (k := k) agree_self
    exact .delete hp hx hid
  | @softDeleteOfItem t k j x hx hid =>
    obtain ⟨rfl, hp⟩ := h.editing (t := t) (k := k) agree_self
    exact .delete hp hx hid
  | @softDeleteAll t k x hx hid =>
    obtain ⟨rfl, hp⟩ := h.deleting (t := t) (k := k) agree_self
    exact .delete hp hx hid

end

section

variable {actor : Actor} {tr : Trace} {e : Endpoint} {snap cur : Database} {clock o : Oracle}

/-- A changed item belongs to a report there is a permit for. -/
theorem ItemChange.permit {x : ExpenseItem} (h : ItemChange actor tr snap cur clock o e x) :
    Permit actor tr x.reportID e := by
  cases h with
  | create hp ht hnone hi =>
    obtain ⟨_, _, rfl⟩ := itemRow_ok hi
    exact hp
  | edit hp ht hx hid hs =>
    obtain ⟨_, rfl⟩ := setItem_ok hs
    simp only [itemOf, Bool.and_eq_true, decide_eq_true_eq] at hid
    exact hid.1.2 ▸ hp
  | delete hp hx hid =>
    simp only [itemOf, Bool.and_eq_true, decide_eq_true_eq] at hid
    exact hid.1.2 ▸ hp

theorem AttachmentChange.permit {x : Attachment}
    (h : AttachmentChange actor tr snap cur clock o e x) : Permit actor tr x.reportID e := by
  cases h with
  | create hp ht hnone ha =>
    rw [(attachmentRow_ok ha).2.1]
    exact hp
  | delete hp hx hid =>
    simp only [attachmentOf, Bool.and_eq_true, decide_eq_true_eq] at hid
    exact hid.1.2 ▸ hp

end

section

variable {C : World server → Action server → Prop} {d₀ : Database} {w : World server} {i : Nat}
  {s : Session server} {q : Stmt} {t : Txn server}

/-- **A report is written by a request, as its contract allows.** -/
theorem report_change (h : Reachable C (.init d₀) w) (hs : w.sessions[i]? = some s)
    {r : ExpenseReport} (hv : Writing w.db (w.others i) s q t (.report r)) :
    ∃ actor e snap o, s.call = .tenant actor e ∧
      ReportChange actor s.trace snap (s.view w.db) t.clock o e r := by
  obtain ⟨snap, o, hw⟩ := hv.writes
  have hw : ReportWrite snap (s.view w.db) t.clock o q r := report_writes hw
  have hm := may_write h hs hv
  generalize s.call = call at hm ⊢
  cases hm with
  | @request actor e q hm => exact ⟨actor, e, snap, o, rfl, hm.reportChange hw hv.fresh⟩
  | auth hm => cases hm <;> cases hw

/-- **An item is written by a request, as its contract allows.** -/
theorem item_change (h : Reachable C (.init d₀) w) (hs : w.sessions[i]? = some s)
    {x : ExpenseItem} (hv : Writing w.db (w.others i) s q t (.item x)) :
    ∃ actor e snap o, s.call = .tenant actor e ∧
      ItemChange actor s.trace snap (s.view w.db) t.clock o e x := by
  obtain ⟨snap, o, hw⟩ := hv.writes
  have hw : ItemWrite snap (s.view w.db) t.clock o q x := item_writes hw
  have hm := may_write h hs hv
  generalize s.call = call at hm ⊢
  cases hm with
  | @request actor e q hm => exact ⟨actor, e, snap, o, rfl, hm.itemChange hw hv.fresh⟩
  | auth hm => cases hm <;> cases hw

/-- **An attachment is written by a request, as its contract allows.** -/
theorem attachment_change (h : Reachable C (.init d₀) w) (hs : w.sessions[i]? = some s)
    {x : Attachment} (hv : Writing w.db (w.others i) s q t (.attachment x)) :
    ∃ actor e snap o, s.call = .tenant actor e ∧
      AttachmentChange actor s.trace snap (s.view w.db) t.clock o e x := by
  obtain ⟨snap, o, hw⟩ := hv.writes
  have hw : AttachmentWrite snap (s.view w.db) t.clock o q x := attachment_writes hw
  have hm := may_write h hs hv
  generalize s.call = call at hm ⊢
  cases hm with
  | @request actor e q hm =>
    exact ⟨actor, e, snap, o, rfl, hm.attachmentChange hw hv.fresh⟩
  | auth hm => cases hm <;> cases hw

end

end ExpenseSaas
