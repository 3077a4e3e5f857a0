import ExpenseSaas.Isolation.Footprint

/-!
# Statements within a footprint

A statement within a footprint answers the same in two databases that agree on
it, and leaves them agreeing (`alone_agree`). Foreign keys are the exception: they
look at a row of any tenant. `Stmt.needs` lists the rows a statement relies on in
this way, which the program must have seen before.

`Grown` is what such statements make of a database: versions of reports, items and
attachments within the footprint are put into it, and a row that is new has an
identifier drawn for it.
-/

namespace ExpenseSaas

open ReadCommitted Sql

/-- The statement depends on rows within the footprint only, and writes no others. -/
def Sql.Stmt.Within (F : Footprint) : Stmt → Prop
  | .setCurrentTenant _ => True
  | .createReport p => F.tenant p.tenantID = true ∧ ∀ k, F.owns p.tenantID k = true
  | .getReportByID t k => F.owns t k = true
  | .listReportsByUser p => ∀ k, F.owns p.tenantID k = true
  | .countReportsByUser p => ∀ k, F.owns p.tenantID k = true
  | .listAllReports p => ∀ k, F.owns p.tenantID k = true
  | .countAllReports p => ∀ k, F.owns p.tenantID k = true
  | .updateReport p => F.owns p.tenantID p.reportID = true
  | .updateReportStatus p => F.owns p.tenantID p.reportID = true
  | .softDeleteReport t k => F.owns t k = true
  | .listPendingReports p => ∀ k, F.owns p.tenantID k = true
  | .countPendingReports p => ∀ k, F.owns p.tenantID k = true
  | .listPayableReports p => ∀ k, F.owns p.tenantID k = true
  | .countPayableReports p => ∀ k, F.owns p.tenantID k = true
  | .listProcessedReports p => ∀ k, F.owns p.tenantID k = true
  | .countProcessedReports p => ∀ k, F.owns p.tenantID k = true
  | .countReportsByStatus t => ∀ k, F.owns t k = true
  | .countMyReportsByStatus t _ => ∀ k, F.owns t k = true
  | .monthlySummaryAll t _ => ∀ k, F.owns t k = true
  | .monthlySummaryByUser t _ _ => ∀ k, F.owns t k = true
  | .listRecentReports t _ _ => ∀ k, F.owns t k = true
  | .updateReportTotalAmount t k => F.owns t k = true
  | .createExpenseItem p => F.tenant p.tenantID = true ∧ F.owns p.tenantID p.reportID = true
  | .getExpenseItemByID t k _ => F.owns t k = true
  | .listExpenseItemsByReportID t k => F.owns t k = true
  | .updateExpenseItem p => F.owns p.tenantID p.reportID = true
  | .softDeleteExpenseItem t k _ => F.owns t k = true
  | .softDeleteExpenseItemsByReportID t k => F.owns t k = true
  | .createAttachment p => F.tenant p.tenantID = true ∧ F.owns p.tenantID p.reportID = true
  | .getAttachmentByID t k _ _ => F.owns t k = true
  | .listAttachmentsByItemID t k _ => F.owns t k = true
  | .softDeleteAttachment t k _ _ => F.owns t k = true
  | .softDeleteAttachmentsByItemID t k _ => F.owns t k = true
  | .softDeleteAttachmentsByReportID t k => F.owns t k = true
  | .listActiveCategories t => F.category none = true ∧ F.category (some t) = true
  | .getCategoryByID t _ => F.category none = true ∧ F.category (some t) = true
  | .getTenantByID t => F.tenant t = true
  | .getUserByID _ => True
  | .listMembershipsByTenantID t => F.tenant t = true
  | .hasApprover t => F.tenant t = true
  | .countMembersByTenantID t => F.tenant t = true
  | _ => False

/-- The rows a statement refers to by their key alone. -/
def Sql.Stmt.needs : Stmt → List RowId
  | .createReport p => p.referenceReportID.toList.map RowId.report
  | .createExpenseItem p => [.report p.reportID, .category p.categoryID]
  | .updateExpenseItem p => [.category p.categoryID]
  | .createAttachment p => [.item p.itemID, .report p.reportID]
  | _ => []

/-- The identifier a statement was given for its new row. -/
def Sql.Stmt.names : Stmt → Option UUID
  | .createAttachment p => some p.attachmentID
  | _ => none

/-- A version of a report, an item or an attachment. -/
def Version.isData : Version → Bool
  | .report _ => true
  | .item _ => true
  | .attachment _ => true
  | _ => false

/-- Every item within the footprint has a category within it. -/
def Offered (F : Footprint) (d : Database) : Prop :=
  ∀ i x, d.get (.item i) = some (.item x) → F.owns x.tenantID x.reportID = true →
    F.Inside d (.category x.categoryID)

/-- What putting a version within the footprint takes. -/
structure Puts (F : Footprint) (ids : UUID → Prop) (d : Database) (v : Version) : Prop where
  isData : v.isData = true
  holds : F.holds v = true
  old : ∀ x, d.get v.id = some x → F.holds x = true
  fresh : d.get v.id = none → v.id.Drawn ids
  category : ∀ x, v = .item x → F.Inside d (.category x.categoryID)

/-- Versions within the footprint were put into `d`. -/
inductive Grown (F : Footprint) (ids : UUID → Prop) (d : Database) : Database → Prop where
  | refl : Grown F ids d d
  | put {e v} : Grown F ids d e → Puts F ids e v → Grown F ids d (e.put v)

section

variable {F : Footprint} {ids : UUID → Prop} {d d' e e' : Database} {q : Stmt}
  {clock o : Oracle} {k : RowId}

theorem Grown.trans (h : Grown F ids d e) (h' : Grown F ids e e') : Grown F ids d e' := by
  induction h' with
  | refl => exact h
  | put _ hp ih => exact ih.put hp

theorem Grown.inside (h : Grown F ids d e) (hk : F.Inside d k) : F.Inside e k := by
  induction h with
  | refl => exact hk
  | put _ hp ih => exact ih.put hp.holds

theorem Grown.offered (h : Grown F ids d e) (hd : Offered F d) : Offered F e := by
  induction h with
  | refl => exact hd
  | @put e v hg hp ih =>
    intro i x hx hown
    rw [Database.get_put] at hx
    split at hx
    · cases hx
      exact (hp.category x rfl).put hp.holds
    · exact (ih i x hx hown).put hp.holds

/-! ## One statement -/

/-- What the statement leaves: databases that agree, grown from the ones before. -/
abbrev Alike (F : Footprint) (ids : UUID → Prop) (d₀ : Database) {β : Type} (_ : β)
    (d d' : Database) : Prop :=
  Agree F ids d d' ∧ Grown F ids d₀ d

/-- A query that reads the same. -/
theorem alike_of_query {read : Database → Oracle → Oracle → Except SqlError q.Result}
    (hq : server.sem q = .query read) (h : Agree F ids d d')
    (hread : read d' clock o = read d clock o) :
    Outcomes (Alike F ids d) (server.alone q clock o d) (server.alone q clock o d') := by
  unfold Engine.alone
  rw [hq]
  dsimp only
  rw [hread]
  cases read d clock o with
  | ok r => exact .ok ⟨h, .refl⟩
  | error err => exact .error

section

variable {R : Type} {T : Relation R} {cond : R → Bool}
  {set : Database → Database → Oracle → R → Except SqlError R} {snap snap' d₀ : Database}

/-- An insertion that makes the same row, of an identifier that was drawn. -/
theorem alike_of_insert {row : Database → Oracle → Oracle → Except SqlError R}
    {resp : Version → q.Result}
    (hq : server.sem q = .insert (fun d clock o => (row d clock o).map T.wrap) resp)
    (h : Agree F ids d d') (hrow : row d' clock o = row d clock o)
    (hmade : ∀ r, row d clock o = .ok r → (T.wrap r).isData = true ∧ F.holds (T.wrap r) = true ∧
      (T.id r).Drawn ids ∧ ∀ x, T.wrap r = .item x → F.Inside d (.category x.categoryID)) :
    Outcomes (Alike F ids d) (server.alone q clock o d) (server.alone q clock o d') := by
  unfold Engine.alone
  rw [hq]
  dsimp only
  rw [hrow]
  cases hr : row d clock o with
  | error err => exact .error
  | ok r =>
    obtain ⟨hdata, hF, hid, hcat⟩ := hmade r hr
    rw [← T.id_wrap] at hid
    dsimp only [Except.map]
    generalize T.wrap r = v at hdata hF hid hcat
    -- the key is taken in both or in neither, since its identifier was drawn
    have hsome := h.drawn v.id hid
    have htaken : ∀ e : Database, server.taken e v = (e.get v.id).isSome := by
      intro e
      cases v with
      | report _ | item _ | attachment _ => exact Bool.or_false _
      | _ => cases hdata
    by_cases ht : server.taken d v = true
    · have ht' : server.taken d' v = true := by rw [htaken, ← hsome, ← htaken, ht]
      rw [if_pos ht, if_pos ht']
      exact .error
    · have ht' : ¬ server.taken d' v = true := by rw [htaken, ← hsome, ← htaken]; exact ht
      rw [if_neg ht, if_neg ht']
      -- a new row replaces nothing
      rw [htaken, Option.not_isSome_iff_eq_none] at ht
      rw [htaken, Option.not_isSome_iff_eq_none] at ht'
      have hnone : ∀ {e : Database}, e.get v.id = none →
          ∀ x, e.get v.id = some x → F.holds x = true := by
        intro e he x hx
        rw [he] at hx
        cases hx
      have hput : Puts F ids d v := ⟨hdata, hF, hnone ht, fun _ => hid, hcat⟩
      exact .ok ⟨h.put hF (hnone ht) (hnone ht'), Grown.refl.put hput⟩

/-- The visits of an update do the same in both databases. -/
theorem alike_of_visit (done : List Version)
    (hset : ∀ cur cur' r, Agree F ids cur cur' → Grown F ids d₀ cur →
      cur.get (T.id r) = some (T.wrap r) → F.holds (T.wrap r) = true → cond r = true →
      set snap' cur' clock r = set snap cur clock r ∧ ∀ r', set snap cur clock r = .ok r' →
        T.id r' = T.id r ∧ Puts F ids cur (T.wrap r'))
    {keys : List RowId} (h : Agree F ids d d') (hg : Grown F ids d₀ d)
    (hkeys : ∀ k ∈ keys, F.Inside d k) :
    Outcomes (Alike F ids d₀)
      (server.visit (fun k cur => T.apply cond set snap cur clock k) keys d done)
      (server.visit (fun k cur => T.apply cond set snap' cur clock k) keys d' done) := by
  induction keys generalizing d d' done with
  | nil => exact .ok ⟨h, hg⟩
  | cons k rest ih =>
    have hk : F.Inside d k := hkeys k List.mem_cons_self
    have hrest : ∀ k ∈ rest, F.Inside d k := fun k hk => hkeys k (List.mem_cons_of_mem _ hk)
    have hfind : T.find d' k = T.find d k := by
      unfold Relation.find
      rw [h.get_eq hk]
    unfold Engine.visit Relation.apply
    rw [hfind]
    -- both runs find the same current version, and go on from databases that agree
    cases hr : T.find d k with
    | none => exact ih done h hg hrest
    | some r =>
      have hget := T.find_eq_some.mp hr
      have hid := T.id_of_get hget
      have hF : F.holds (T.wrap r) = true := by
        obtain ⟨v, hv, hF⟩ := hk
        cases hv.symm.trans hget
        exact hF
      dsimp only
      by_cases hc : cond r = true
      · rw [if_pos hc, if_pos hc]
        obtain ⟨hsame, hmade⟩ := hset d d' r h hg (hid ▸ hget) hF hc
        rw [hsame]
        cases hs : set snap d clock r with
        | error err => exact .error
        | ok r' =>
          obtain ⟨hid', hp⟩ := hmade r' hs
          have hold' : ∀ x, d'.get (T.wrap r').id = some x → F.holds x = true := by
            intro x hx
            rw [T.id_wrap, hid', hid, h.get_eq hk] at hx
            exact hp.old x (by rw [T.id_wrap, hid', hid, hx])
          exact ih _ (h.put hp.holds hp.old hold') (hg.put hp) fun k hk => (hrest k hk).put hp.holds
      · rw [if_neg hc, if_neg hc]
        exact ih done h hg hrest

/-- An update that does the same with every row it visits. -/
theorem alike_of_update {resp : List R → q.Result} (hq : server.sem q = T.update cond set resp)
    (h : Agree F ids d d') (hT : SameRows F T d d')
    (hcond : ∀ r, cond r = true → F.holds (T.wrap r) = true)
    (hset : ∀ cur cur' r, Agree F ids cur cur' → Grown F ids d cur →
      cur.get (T.id r) = some (T.wrap r) → F.holds (T.wrap r) = true → cond r = true →
      set d' cur' clock r = set d cur clock r ∧ ∀ r', set d cur clock r = .ok r' →
        T.id r' = T.id r ∧ Puts F ids cur (T.wrap r')) :
    Outcomes (Alike F ids d) (server.alone q clock o d) (server.alone q clock o d') := by
  unfold Engine.alone
  rw [hq]
  unfold Relation.update
  dsimp only
  -- the targets are read from the snapshot, the versions visited later are current
  rw [← hT.filter hcond]
  have hkeys : ∀ k ∈ (T.filter cond d).map T.id, F.Inside d k := by
    intro k hk
    obtain ⟨r, hr, rfl⟩ := List.mem_map.mp hk
    obtain ⟨hmem, hc⟩ := List.mem_filter.mp hr
    exact ⟨_, (T.mem_rows _ _).mp hmem, hcond r hc⟩
  have hvisit := alike_of_visit [] hset h .refl hkeys
  generalize server.visit _ _ d [] = x at hvisit
  generalize server.visit _ _ d' [] = x' at hvisit
  cases hvisit with
  | ok hr => exact .ok hr
  | error => exact .error

end

/-! ## What a statement looks at -/

/-- A key that only rows within the footprint can have. -/
theorem Agree.get_of_key (h : Agree F ids d d') (hk : ∀ v : Version, v.id = k → F.holds v = true) :
    d'.get k = d.get k := by
  cases hd : d.get k with
  | some v => exact h.get hd (hk v (Database.id_of_get hd))
  | none =>
    cases hd' : d'.get k with
    | none => rfl
    | some v =>
      have hv := h.symm.get hd' (hk v (Database.id_of_get hd'))
      rw [hd] at hv
      cases hv

theorem Agree.users_eq (h : Agree F ids d d') : d'.users = d.users := by
  have hrows : d.users.rows.filter (fun _ => true) = d'.users.rows.filter (fun _ => true) := h.users
  rw [List.filter_true, List.filter_true] at hrows
  obtain ⟨_, ⟨l, hl⟩, _⟩ := d
  obtain ⟨_, ⟨l', hl'⟩, _⟩ := d'
  cases hrows
  rfl

theorem Agree.tenant_eq (h : Agree F ids d d') {t : UUID} (ht : F.tenant t = true) :
    (d'.tenants.find t).isSome = (d.tenants.find t).isSome := by
  have hget := h.get_of_key (k := .tenant t) fun v hv => by
    cases v <;> cases hv
    exact ht
  have hsome := congrArg Option.isSome hget
  simpa only [Database.get, Option.isSome_map] using hsome

theorem Agree.category_eq (h : Agree F ids d d') {c : UUID} (hc : F.Inside d (.category c)) :
    (d'.categories.find c).isSome = (d.categories.find c).isSome := by
  have hsome := congrArg Option.isSome (h.get_eq hc)
  simpa only [Database.get, Option.isSome_map] using hsome

theorem Agree.report_eq (h : Agree F ids d d') {k : UUID} (hk : F.Inside d (.report k)) :
    (d'.reports.find k).isSome = (d.reports.find k).isSome := by
  have hsome := congrArg Option.isSome (h.get_eq hk)
  simpa only [Database.get, Option.isSome_map] using hsome

theorem Agree.item_eq (h : Agree F ids d d') {i : UUID} (hi : F.Inside d (.item i)) :
    (d'.items.find i).isSome = (d.items.find i).isSome := by
  have hsome := congrArg Option.isSome (h.get_eq hi)
  simpa only [Database.get, Option.isSome_map] using hsome

theorem holds_of_reportIs {t k : UUID} {r : ExpenseReport} (hF : F.owns t k = true)
    (hr : reportIs t k r = true) : F.holds (.report r) = true := by
  simp only [reportIs, Bool.and_eq_true, decide_eq_true_eq] at hr
  simp [Footprint.holds, hr.1.1, hr.1.2, hF]

theorem holds_of_itemOf {t k : UUID} {x : ExpenseItem} (hF : F.owns t k = true)
    (hx : itemOf t k x = true) : F.holds (.item x) = true := by
  simp only [itemOf, Bool.and_eq_true, decide_eq_true_eq] at hx
  simp [Footprint.holds, hx.1.1, hx.1.2, hF]

theorem holds_of_attachmentOf {t k : UUID} {a : Attachment} (hF : F.owns t k = true)
    (ha : attachmentOf t k a = true) : F.holds (.attachment a) = true := by
  simp only [attachmentOf, Bool.and_eq_true, decide_eq_true_eq] at ha
  simp [Footprint.holds, ha.1.1, ha.1.2, hF]

theorem holds_of_tenant {t : UUID} {r : ExpenseReport} (hF : ∀ k, F.owns t k = true)
    (hr : r.tenantID = t) : F.holds (.report r) = true := by
  subst hr
  exact hF _

/-! ## Versions that are put -/

/-- A new version of a row of the footprint that stays where it is. -/
theorem puts_of_get {v v' : Version} (hget : d.get v.id = some v) (hid : v'.id = v.id)
    (hdata : v'.isData = true) (hF : F.holds v = true) (hF' : F.holds v' = true)
    (hcat : ∀ x, v' = .item x → F.Inside d (.category x.categoryID)) : Puts F ids d v' where
  isData := hdata
  holds := hF'
  old x hx := by
    rw [hid, hget] at hx
    cases hx
    exact hF
  fresh hnone := by
    rw [hid, hget] at hnone
    cases hnone
  category := hcat

theorem puts_report {r r' : ExpenseReport} (hget : d.get (.report r.reportID) = some (.report r))
    (hF : F.holds (.report r) = true) (ht : r'.tenantID = r.tenantID)
    (hk : r'.reportID = r.reportID) : Puts F ids d (.report r') := by
  have hF' : F.owns r'.tenantID r'.reportID = true := by
    rw [ht, hk]
    exact hF
  refine puts_of_get (v := .report r) hget (congrArg RowId.report hk) rfl hF hF' fun x hx => ?_
  cases hx

theorem puts_item {x x' : ExpenseItem} (hget : d.get (.item x.itemID) = some (.item x))
    (hF : F.holds (.item x) = true) (ht : x'.tenantID = x.tenantID) (hk : x'.reportID = x.reportID)
    (hi : x'.itemID = x.itemID) (hc : F.Inside d (.category x'.categoryID)) :
    Puts F ids d (.item x') := by
  have hF' : F.owns x'.tenantID x'.reportID = true := by
    rw [ht, hk]
    exact hF
  refine puts_of_get (v := .item x) hget (congrArg RowId.item hi) rfl hF hF' fun y hy => ?_
  cases hy
  exact hc

theorem puts_attachment {a a' : Attachment}
    (hget : d.get (.attachment a.attachmentID) = some (.attachment a))
    (hF : F.holds (.attachment a) = true) (ht : a'.tenantID = a.tenantID)
    (hk : a'.reportID = a.reportID) (hi : a'.attachmentID = a.attachmentID) :
    Puts F ids d (.attachment a') := by
  have hF' : F.owns a'.tenantID a'.reportID = true := by
    rw [ht, hk]
    exact hF
  refine puts_of_get (v := .attachment a) hget (congrArg RowId.attachment hi) rfl hF hF'
    fun x hx => ?_
  cases hx

/-! ## Selections within the footprint -/

theorem Agree.reports_of_tenant (h : Agree F ids d d') {t : UUID} (hF : ∀ k, F.owns t k = true)
    {sel : ExpenseReport → Bool} (hsel : ∀ r, sel r = true → r.tenantID = t) :
    reportRows.filter sel d' = reportRows.filter sel d :=
  (h.reports.filter fun r hr => holds_of_tenant hF (hsel r hr)).symm

theorem Agree.items_of_report (h : Agree F ids d d') {t k : UUID} (hF : F.owns t k = true)
    {sel : ExpenseItem → Bool} (hsel : ∀ x, sel x = true → itemOf t k x = true) :
    itemRows.filter sel d' = itemRows.filter sel d :=
  (h.items.filter fun x hx => holds_of_itemOf hF (hsel x hx)).symm

theorem Agree.attachments_of_report (h : Agree F ids d d') {t k : UUID} (hF : F.owns t k = true)
    {sel : Attachment → Bool} (hsel : ∀ a, sel a = true → attachmentOf t k a = true) :
    attachmentRows.filter sel d' = attachmentRows.filter sel d :=
  (h.attachments.filter fun a ha => holds_of_attachmentOf hF (hsel a ha)).symm

theorem Agree.memberships_of_tenant (h : Agree F ids d d') {t : UUID} (hF : F.tenant t = true) :
    membershipRows.filter (fun m => m.tenantID = t) d' =
      membershipRows.filter (fun m => m.tenantID = t) d :=
  (h.memberships.filter fun m hm => by
    obtain rfl := of_decide_eq_true hm
    exact hF).symm

theorem Agree.categories_of_tenant (h : Agree F ids d d') {t : UUID}
    (hnone : F.category none = true) (hF : F.category (some t) = true) {sel : Category → Bool}
    (hsel : ∀ c, sel c = true → c.tenantID = none ∨ c.tenantID = some t) :
    categoryRows.filter sel d' = categoryRows.filter sel d := by
  refine (h.categories.filter fun c hc => ?_).symm
  show F.category c.tenantID = true
  rcases hsel c hc with ht | ht
  · rw [ht]
    exact hnone
  · rw [ht]
    exact hF

theorem tenantID_of_selects {p : ListReportsParams} {r : ExpenseReport} (h : p.selects r = true) :
    r.tenantID = p.tenantID := by
  simp only [ListReportsParams.selects, Bool.and_eq_true, decide_eq_true_eq] at h
  exact h.1.1.1.1.1

theorem tenantID_of_processed {p : ListProcessedReportsParams} {r : ExpenseReport}
    (h : p.selects r = true) : r.tenantID = p.tenantID := by
  simp only [ListProcessedReportsParams.selects, Bool.and_eq_true, decide_eq_true_eq] at h
  exact h.1.1

theorem tenantID_of_mine {t : UUID} {u : Option UUID} {r : ExpenseReport} (h : mine t u r = true) :
    r.tenantID = t := by
  simp only [mine, Bool.and_eq_true, decide_eq_true_eq] at h
  exact h.1.1

/-- A work list joins the users, which are all within the footprint. -/
theorem Agree.workflow_eq (h : Agree F ids d d') {p : ListWorkflowParams} {status : ReportStatus}
    (hF : ∀ k, F.owns p.tenantID k = true) :
    reportRows.filter (p.selects status d' o) d' = reportRows.filter (p.selects status d o) d := by
  have hsel : p.selects status d' o = p.selects status d o := by
    funext r
    unfold ListWorkflowParams.selects
    rw [h.users_eq]
  rw [hsel]
  refine h.reports_of_tenant hF fun r hr => ?_
  unfold ListWorkflowParams.selects at hr
  split at hr
  · cases hr
  · simp only [Bool.and_eq_true, decide_eq_true_eq] at hr
    exact hr.1.1.1

/-- So is what a month adds up to. -/
theorem Agree.monthlySummary_eq (h : Agree F ids d d') {t : UUID} {u : Option UUID} {n : Int}
    (hF : ∀ k, F.owns t k = true) :
    monthlySummary t u n d' clock = monthlySummary t u n d clock := by
  unfold monthlySummary
  cases sinceMonth clock n with
  | error e => rfl
  | ok since =>
    dsimp only [bind, Except.bind]
    rw [h.reports_of_tenant hF fun r hr => ?_]
    simp only [Bool.and_eq_true, decide_eq_true_eq] at hr
    exact hr.1.1.1.1

/-- And what the items of a report add up to. -/
theorem Agree.sumOfItems_eq (h : Agree F ids d d') {t k : UUID} (hF : F.owns t k = true) :
    sumOfItems d' t k = sumOfItems d t k := by
  unfold sumOfItems liveItems
  rw [h.items_of_report hF fun x hx => ?_]
  simp only [Bool.and_eq_true, decide_eq_true_eq] at hx
  simp [itemOf, hx.1.1, hx.1.2, hx.2]

/-! ## Insertions -/

/-- The rows that are inserted are the same in both databases. -/
theorem reportRow_eq {p : Sql.CreateReportParams} (h : Agree F ids d d')
    (hF : F.tenant p.tenantID = true) (hneeds : ∀ k ∈ (Stmt.createReport p).needs, F.Inside d k) :
    reportRow p d' clock o = reportRow p d clock o := by
  have href : (p.referenceReportID.all fun k => (d'.reports.find k).isSome) =
      p.referenceReportID.all fun k => (d.reports.find k).isSome := by
    cases hp : p.referenceReportID with
    | none => rfl
    | some k =>
      have hk : F.Inside d (.report k) := hneeds _ (by
        show RowId.report k ∈ p.referenceReportID.toList.map RowId.report
        rw [hp]
        exact List.mem_singleton_self _)
      exact h.report_eq hk
  unfold reportRow
  rw [h.tenant_eq hF, h.users_eq, href]

theorem itemRow_eq {p : CreateExpenseItemParams} (h : Agree F ids d d')
    (hF : F.tenant p.tenantID = true)
    (hreport : F.Inside d (.report p.reportID)) (hcategory : F.Inside d (.category p.categoryID)) :
    itemRow p d' clock o = itemRow p d clock o := by
  unfold itemRow
  rw [h.tenant_eq hF, h.report_eq hreport, h.category_eq hcategory]

theorem attachmentRow_eq {p : CreateAttachmentParams} (h : Agree F ids d d')
    (hF : F.tenant p.tenantID = true)
    (hitem : F.Inside d (.item p.itemID)) (hreport : F.Inside d (.report p.reportID)) :
    attachmentRow p d' clock o = attachmentRow p d clock o := by
  unfold attachmentRow
  rw [h.tenant_eq hF, h.item_eq hitem, h.report_eq hreport]

theorem createReport_agree {p : Sql.CreateReportParams} (hw : (Stmt.createReport p).Within F)
    (hneeds : ∀ k ∈ (Stmt.createReport p).needs, F.Inside d k) (ho : ids o.uuid)
    (h : Agree F ids d d') :
    Outcomes (Alike F ids d) (server.alone (Stmt.createReport p) clock o d)
      (server.alone (Stmt.createReport p) clock o d') := by
  refine alike_of_insert (T := reportRows) rfl h (reportRow_eq h hw.1 hneeds) fun r hr => ?_
  obtain ⟨_, _, rfl⟩ := reportRow_ok hr
  exact ⟨rfl, hw.2 _, ⟨_, ho, .inl rfl⟩, fun x hx => by cases hx⟩

theorem createExpenseItem_agree {p : CreateExpenseItemParams}
    (hw : (Stmt.createExpenseItem p).Within F)
    (hneeds : ∀ k ∈ (Stmt.createExpenseItem p).needs, F.Inside d k) (ho : ids o.uuid)
    (h : Agree F ids d d') :
    Outcomes (Alike F ids d) (server.alone (Stmt.createExpenseItem p) clock o d)
      (server.alone (Stmt.createExpenseItem p) clock o d') := by
  have hreport : F.Inside d (.report p.reportID) := hneeds _ List.mem_cons_self
  have hcategory : F.Inside d (.category p.categoryID) :=
    hneeds _ (List.mem_cons_of_mem _ List.mem_cons_self)
  refine alike_of_insert (T := itemRows) rfl h (itemRow_eq h hw.1 hreport hcategory) fun x hx => ?_
  obtain ⟨_, _, rfl⟩ := itemRow_ok hx
  refine ⟨rfl, hw.2, ⟨_, ho, .inr (.inl rfl)⟩, fun y hy => ?_⟩
  cases hy
  exact hcategory

theorem createAttachment_agree {p : CreateAttachmentParams}
    (hw : (Stmt.createAttachment p).Within F)
    (hneeds : ∀ k ∈ (Stmt.createAttachment p).needs, F.Inside d k) (hid : ids p.attachmentID)
    (h : Agree F ids d d') :
    Outcomes (Alike F ids d) (server.alone (Stmt.createAttachment p) clock o d)
      (server.alone (Stmt.createAttachment p) clock o d') := by
  have hitem : F.Inside d (.item p.itemID) := hneeds _ List.mem_cons_self
  have hreport : F.Inside d (.report p.reportID) :=
    hneeds _ (List.mem_cons_of_mem _ List.mem_cons_self)
  refine alike_of_insert (T := attachmentRows) rfl h (attachmentRow_eq h hw.1 hitem hreport)
    fun a ha => ?_
  obtain ⟨hida, hk, ht, _, _⟩ := attachmentRow_ok ha
  refine ⟨rfl, ?_, ⟨_, hid, .inr (.inr (congrArg RowId.attachment hida))⟩, fun x hx => by cases hx⟩
  show F.owns a.tenantID a.reportID = true
  rw [ht, hk]
  exact hw.2

/-! ## Updates -/

/-- An update of reports that stay where they are. -/
theorem alike_of_reports {cond : ExpenseReport → Bool}
    {set : Database → Database → Oracle → ExpenseReport → Except SqlError ExpenseReport}
    {resp : List ExpenseReport → q.Result} (hq : server.sem q = reportRows.update cond set resp)
    (h : Agree F ids d d') (hcond : ∀ r, cond r = true → F.holds (.report r) = true)
    (hset : ∀ cur cur' r, Agree F ids cur cur' → F.holds (.report r) = true →
      set d' cur' clock r = set d cur clock r)
    (hkept : ∀ cur r r', set d cur clock r = .ok r' →
      r'.tenantID = r.tenantID ∧ r'.reportID = r.reportID) :
    Outcomes (Alike F ids d) (server.alone q clock o d) (server.alone q clock o d') := by
  refine alike_of_update hq h h.reports hcond fun cur cur' r hcur _ hget hF _ => ?_
  refine ⟨hset cur cur' r hcur hF, fun r' hr' => ?_⟩
  obtain ⟨ht, hk⟩ := hkept cur r r' hr'
  exact ⟨congrArg RowId.report hk, puts_report hget hF ht hk⟩

/-- An update of items that stay where they are, and have a category within the footprint. -/
theorem alike_of_items {cond : ExpenseItem → Bool}
    {set : Database → Database → Oracle → ExpenseItem → Except SqlError ExpenseItem}
    {resp : List ExpenseItem → q.Result} (hq : server.sem q = itemRows.update cond set resp)
    (h : Agree F ids d d') (hcond : ∀ x, cond x = true → F.holds (.item x) = true)
    (hset : ∀ cur cur' x, Agree F ids cur cur' → Grown F ids d cur →
      set d' cur' clock x = set d cur clock x)
    (hkept : ∀ cur x x', Grown F ids d cur → F.Inside cur (.category x.categoryID) →
      set d cur clock x = .ok x' → x'.tenantID = x.tenantID ∧ x'.reportID = x.reportID ∧
        x'.itemID = x.itemID ∧ F.Inside cur (.category x'.categoryID)) (hd : Offered F d) :
    Outcomes (Alike F ids d) (server.alone q clock o d) (server.alone q clock o d') := by
  refine alike_of_update hq h h.items hcond fun cur cur' x hcur hg hget hF _ => ?_
  refine ⟨hset cur cur' x hcur hg, fun x' hx' => ?_⟩
  obtain ⟨ht, hk, hi, hc⟩ := hkept cur x x' hg (hg.offered hd _ x hget hF) hx'
  exact ⟨congrArg RowId.item hi, puts_item hget hF ht hk hi hc⟩

/-- A soft deletion of attachments. -/
theorem alike_of_attachments {cond : Attachment → Bool}
    {set : Database → Database → Oracle → Attachment → Except SqlError Attachment}
    {resp : List Attachment → q.Result} (hq : server.sem q = attachmentRows.update cond set resp)
    (h : Agree F ids d d') (hcond : ∀ a, cond a = true → F.holds (.attachment a) = true)
    (hset : ∀ cur cur' a, set d' cur' clock a = set d cur clock a)
    (hkept : ∀ cur a a', set d cur clock a = .ok a' → a'.tenantID = a.tenantID ∧
      a'.reportID = a.reportID ∧ a'.attachmentID = a.attachmentID) :
    Outcomes (Alike F ids d) (server.alone q clock o d) (server.alone q clock o d') := by
  refine alike_of_update hq h h.attachments hcond fun cur cur' a _ _ hget hF _ => ?_
  refine ⟨hset cur cur' a, fun a' ha' => ?_⟩
  obtain ⟨ht, hk, hi⟩ := hkept cur a a' ha'
  exact ⟨congrArg RowId.attachment hi, puts_attachment hget hF ht hk hi⟩

/-! ## Every statement -/

/-- A statement that only reads answers the same. -/
theorem query_agree (hw : q.Within F)
    (hq : ∃ read : Database → Oracle → Oracle → Except SqlError q.Result, server.sem q = .query read)
    (h : Agree F ids d d') :
    Outcomes (Alike F ids d) (server.alone q clock o d) (server.alone q clock o d') := by
  cases q with
  | setCurrentTenant _ => exact alike_of_query rfl h rfl
  | getReportByID t k =>
    refine alike_of_query rfl h ?_
    unfold Relation.first
    rw [h.reports.filter fun r hr => holds_of_reportIs hw hr]
  | listReportsByUser p | countReportsByUser p | listAllReports p | countAllReports p =>
    refine alike_of_query rfl h ?_
    rw [h.reports_of_tenant hw fun r => tenantID_of_selects]
  | listProcessedReports p | countProcessedReports p =>
    refine alike_of_query rfl h ?_
    rw [h.reports_of_tenant hw fun r => tenantID_of_processed]
  | listPendingReports p | countPendingReports p | listPayableReports p | countPayableReports p =>
    refine alike_of_query rfl h ?_
    rw [h.workflow_eq hw]
  | countReportsByStatus t | countMyReportsByStatus t u | listRecentReports t u limit =>
    refine alike_of_query rfl h ?_
    rw [h.reports_of_tenant hw fun r => tenantID_of_mine]
  | monthlySummaryAll t n | monthlySummaryByUser t u n =>
    exact alike_of_query rfl h (h.monthlySummary_eq hw)
  | getExpenseItemByID t k i =>
    refine alike_of_query rfl h ?_
    unfold Relation.first
    rw [h.items_of_report hw fun x hx => (Bool.and_eq_true_iff.mp hx).1]
  | listExpenseItemsByReportID t k =>
    refine alike_of_query rfl h ?_
    rw [h.items_of_report hw fun x hx => hx]
  | getAttachmentByID t k i a =>
    refine alike_of_query rfl h ?_
    unfold Relation.first
    rw [h.attachments_of_report hw fun x hx =>
      (Bool.and_eq_true_iff.mp (Bool.and_eq_true_iff.mp hx).1).1]
  | listAttachmentsByItemID t k i =>
    refine alike_of_query rfl h ?_
    rw [h.attachments_of_report hw fun x hx => (Bool.and_eq_true_iff.mp hx).1]
  | listActiveCategories t =>
    refine alike_of_query rfl h ?_
    rw [h.categories_of_tenant hw.1 hw.2 fun c hc => ?_]
    simp only [Bool.and_eq_true, Bool.or_eq_true, decide_eq_true_eq] at hc
    exact hc.2
  | getCategoryByID t k =>
    refine alike_of_query rfl h ?_
    unfold Relation.first
    rw [h.categories_of_tenant hw.1 hw.2 fun c hc => ?_]
    simp only [Bool.and_eq_true, Bool.or_eq_true, decide_eq_true_eq] at hc
    exact hc.2.symm
  | getTenantByID t =>
    refine alike_of_query rfl h ?_
    rw [h.tenants.first fun x hx => ?_]
    obtain rfl := of_decide_eq_true hx
    exact hw
  | getUserByID u =>
    refine alike_of_query rfl h ?_
    rw [h.users.first fun x _ => rfl]
  | listMembershipsByTenantID t | hasApprover t | countMembersByTenantID t =>
    refine alike_of_query rfl h ?_
    rw [h.memberships_of_tenant hw]
  | _ =>
    -- it is outside every footprint, or it writes
    obtain ⟨read, hread⟩ := hq
    first | exact hw.elim | cases hread

/-- **A statement within the footprint answers the same** in two databases that agree, and they go on agreeing. -/
theorem alone_agree (hd : Offered F d) (hw : q.Within F) (hneeds : ∀ k ∈ q.needs, F.Inside d k)
    (hnames : ∀ u, q.names = some u → ids u) (ho : ids o.uuid) (h : Agree F ids d d') :
    Outcomes (Alike F ids d) (server.alone q clock o d) (server.alone q clock o d') := by
  cases q with
  | createReport p => exact createReport_agree hw hneeds ho h
  | createExpenseItem p => exact createExpenseItem_agree hw hneeds ho h
  | createAttachment p => exact createAttachment_agree hw hneeds (hnames _ rfl) h
  | updateReport p =>
    refine alike_of_reports rfl h (fun r hr => ?_) (fun _ _ _ _ _ => rfl) fun cur r r' hr' => ?_
    · exact holds_of_reportIs hw (Bool.and_eq_true_iff.mp hr).1
    · obtain ⟨_, _, rfl⟩ := setReport_ok hr'
      exact ⟨rfl, rfl⟩
  | updateReportStatus p =>
    refine alike_of_reports rfl h (fun r hr => ?_) (fun cur cur' r hcur _ => ?_) fun cur r r' hr' => ?_
    · exact holds_of_reportIs hw (Bool.and_eq_true_iff.mp hr).1
    · -- the columns that refer to users look at all of them
      unfold setReportStatus userColumn
      rw [hcur.users_eq]
    · obtain ⟨_, _, _, _, rfl⟩ := setReportStatus_ok hr'
      exact ⟨rfl, rfl⟩
  | softDeleteReport t k =>
    refine alike_of_reports rfl h (fun r hr => holds_of_reportIs hw hr) (fun _ _ _ _ _ => rfl)
      fun cur r r' hr' => ?_
    cases hr'
    exact ⟨rfl, rfl⟩
  | updateReportTotalAmount t k =>
    refine alike_of_reports rfl h (fun r hr => ?_) (fun cur cur' r _ hF => ?_) fun cur r r' hr' => ?_
    · obtain ⟨ht, hk⟩ := Bool.and_eq_true_iff.mp hr
      obtain rfl := of_decide_eq_true ht
      obtain rfl := of_decide_eq_true hk
      exact hw
    · -- the subquery reads the snapshot, not the current versions
      unfold setReportTotalAmount
      rw [h.sumOfItems_eq hF]
    · rw [setReportTotalAmount_ok hr']
      exact ⟨rfl, rfl⟩
  | updateExpenseItem p =>
    have hcategory : F.Inside d (.category p.categoryID) := hneeds _ List.mem_cons_self
    refine alike_of_items rfl h (fun x hx => ?_) (fun cur cur' x hcur hg => ?_)
      (fun cur x x' hg _ hx' => ?_) hd
    · exact holds_of_itemOf hw (Bool.and_eq_true_iff.mp (Bool.and_eq_true_iff.mp hx).1).1
    · unfold setItem
      rw [hcur.category_eq (hg.inside hcategory)]
    · obtain ⟨_, rfl⟩ := setItem_ok hx'
      exact ⟨rfl, rfl, rfl, hg.inside hcategory⟩
  | softDeleteExpenseItem t k i =>
    refine alike_of_items rfl h (fun x hx => holds_of_itemOf hw (Bool.and_eq_true_iff.mp hx).1)
      (fun _ _ _ _ _ => rfl) (fun cur x x' _ hc hx' => ?_) hd
    cases hx'
    exact ⟨rfl, rfl, rfl, hc⟩
  | softDeleteExpenseItemsByReportID t k =>
    refine alike_of_items rfl h (fun x hx => holds_of_itemOf hw hx) (fun _ _ _ _ _ => rfl)
      (fun cur x x' _ hc hx' => ?_) hd
    cases hx'
    exact ⟨rfl, rfl, rfl, hc⟩
  | softDeleteAttachment t k i a =>
    refine alike_of_attachments rfl h (fun x hx => ?_) (fun _ _ _ => rfl) fun cur x x' hx' => ?_
    · exact holds_of_attachmentOf hw (Bool.and_eq_true_iff.mp (Bool.and_eq_true_iff.mp hx).1).1
    · cases hx'
      exact ⟨rfl, rfl, rfl⟩
  | softDeleteAttachmentsByItemID t k i =>
    refine alike_of_attachments rfl h (fun x hx => ?_) (fun _ _ _ => rfl) fun cur x x' hx' => ?_
    · exact holds_of_attachmentOf hw (Bool.and_eq_true_iff.mp hx).1
    · cases hx'
      exact ⟨rfl, rfl, rfl⟩
  | softDeleteAttachmentsByReportID t k =>
    refine alike_of_attachments rfl h (fun x hx => holds_of_attachmentOf hw hx) (fun _ _ _ => rfl)
      fun cur x x' hx' => ?_
    cases hx'
    exact ⟨rfl, rfl, rfl⟩
  | _ => first | exact query_agree hw ⟨_, rfl⟩ h | exact hw.elim

end

end ExpenseSaas
