import ExpenseSaas.Alone.Amounts
import ExpenseSaas.ReadCommitted.Placed
import ExpenseSaas.Workflow.Record

/-!
# Resubmission

`CreateReport` with a reference copies the items of a rejected report into a new
draft, one by one, and writes the total of the draft again after each of them.
`CopiedSoFar` is what holds of the database in between, for the items that have been
copied so far; a step of the loop takes it from these to one more, and at the end
it says what there is to say about the new report.

An error ends the request before its commit, whichever item it happened at. That
is about sessions, any of whose commands may fail, among any others.
-/

namespace ExpenseSaas

open ReadCommitted Sql

/-- What is copied of an item. -/
def ExpenseItem.content (x : ExpenseItem) : Date × Int × UUID × String :=
  (x.expenseDate, x.amount, x.categoryID, x.description)

/-- Items are such as their columns hold them, and what is in a report is in one that is there. -/
structure WellStored (d : Database) : Prop where
  amount : ∀ k x, d.items.find k = some x → -2 ^ 31 ≤ x.amount ∧ x.amount < 2 ^ 31
  description : ∀ k x, d.items.find k = some x → varchar 500 x.description = .ok x.description
  item : ∀ k x, d.items.find k = some x → (d.reports.find x.reportID).isSome = true
  attachment : ∀ k a, d.attachments.find k = some a → (d.reports.find a.reportID).isSome = true

/-- A report of the actor's that nothing has happened to. -/
structure FreshDraft (actor : Actor) (r : ExpenseReport) : Prop where
  tenant : r.tenantID = actor.tenantID
  owner : r.userID = actor.userID
  draft : r.status = .draft
  live : r.deletedAt = none
  unsubmitted : r.Unsubmitted
  unapproved : r.Unapproved
  unrejected : r.Unrejected
  unpaid : r.Unpaid

/-- The items `done` have been copied into the new report `r`; everything else is as it was in `d₀`. -/
structure CopiedSoFar (actor : Actor) (d₀ : Database) (done : List ExpenseItem) (d : Database)
    (r : ExpenseReport) : Prop where
  fresh : FreshDraft actor r
  new : d₀.reports.find r.reportID = none
  there : d.reports.find r.reportID = some r
  content : ((liveItems d actor.tenantID r.reportID).map ExpenseItem.content).Perm (done.map ExpenseItem.content)
  total : r.totalAmount = sumOfItems d actor.tenantID r.reportID
  kept : ∀ i v, d₀.get i = some v → d.get i = some v
  added : ∀ i v, d.get i = some v → d₀.get i = some v ∨ v = .report r ∨
    ∃ x, v = .item x ∧ itemOf actor.tenantID r.reportID x = true

/-- A rejected report of the actor's, which is not deleted. -/
def Resubmittable (actor : Actor) (d : Database) (k : UUID) : Prop :=
  ∃ r, d.reports.find k = some r ∧ r.tenantID = actor.tenantID ∧ r.userID = actor.userID ∧
    r.deletedAt = none ∧ r.status = .rejected

/-- The new report, and nothing else. -/
structure Resubmitted (actor : Actor) (d : Database) (k : UUID) (d' : Database) (r : ExpenseReport) : Prop
    extends CopiedSoFar actor d (liveItems d actor.tenantID k) d' r where
  bare : ∀ i a, d'.attachments.find i = some a → a.reportID ≠ r.reportID

/-! ## The loop -/

section

variable {env : Nat → Oracle} {db d d₀ : Database} {clock : Oracle} {n : Nat} {s' : Solo server}
  {actor : Actor} {done items : List ExpenseItem} {r : ExpenseReport} {x y : ExpenseItem}

theorem int32_of_stored {a : Int} (h : -2 ^ 31 ≤ a ∧ a < 2 ^ 31) : int32 a = a :=
  Int.bmod_eq_of_le (by omega) (by omega)

/-- A row that is new goes to the end. -/
theorem liveItems_put_new {t k : UUID} (hnone : d.items.find x.itemID = none) (hx : itemOf t k x = true) :
    liveItems (d.put (.item x)) t k = liveItems d t k ++ [x] := by
  have hrows : (d.put (.item x)).items.rows = d.items.rows ++ [x] := Table.rows_put_new hnone
  rw [liveItems_eq, liveItems_eq]
  show (d.put (.item x)).items.rows.filter (itemOf t k) = d.items.rows.filter (itemOf t k) ++ [x]
  rw [hrows, List.filter_append, List.filter_cons_of_pos hx, List.filter_nil]

/-- **One item more.** -/
theorem CopiedSoFar.copy (h : CopiedSoFar actor d₀ done d r) (hamount : -2 ^ 31 ≤ x.amount ∧ x.amount < 2 ^ 31)
    (hdesc : varchar 500 x.description = .ok x.description)
    (hgives : GivesAlone env (ReportService.copyItem actor r x) (.inside db clock d n) y s') :
    ∃ d' r' n', s' = .inside db clock d' n' ∧ r'.reportID = r.reportID ∧
      CopiedSoFar actor d₀ (done ++ [x]) d' r' := by
  obtain ⟨x', s₁, hx', hrest⟩ := gives_bind.mp (gives_errorf.mp hgives)
  obtain ⟨hrow, hnone, rfl⟩ := gives_createExpenseItem.mp (gives_errorf.mp hx')
  obtain ⟨u, s₂, htotal, hpure⟩ := gives_bind.mp hrest
  obtain ⟨rfl, rfl⟩ := gives_pure.mp hpure
  have hthere : (d.put (.item y)).reports.find r.reportID = some r := h.there
  obtain ⟨r', hset, rfl⟩ := (gives_updateTotal hthere h.fresh.tenant).mp (gives_errorf.mp htotal)
  -- The item that is added.
  obtain ⟨description, _, heq⟩ := itemRow_ok hrow
  have hdesc' : y.description = x.description := Except.ok.inj ((varchar_of_itemRow hrow).symm.trans hdesc)
  have hitem : itemOf actor.tenantID r.reportID y = true := by
    rw [heq]
    simp [itemOf]
  have hcontent : y.content = x.content := by
    unfold ExpenseItem.content
    rw [hdesc', heq]
    simp only [int32_of_stored hamount]
  -- The report with its new total.
  have hr' := setReportTotalAmount_ok hset
  have hid : r'.reportID = r.reportID := by rw [hr']
  refine ⟨_, r', _, rfl, hid, ?_, ?_, ?_, ?_, ?_, ?_, ?_⟩
  · rw [hr']
    exact ⟨h.fresh.tenant, h.fresh.owner, h.fresh.draft, h.fresh.live, h.fresh.unsubmitted, h.fresh.unapproved,
      h.fresh.unrejected, h.fresh.unpaid⟩
  · rw [hid]
    exact h.new
  · exact Table.find_put_self
  · rw [hid]
    show ((liveItems (d.put (.item y)) actor.tenantID r.reportID).map ExpenseItem.content).Perm _
    rw [liveItems_put_new hnone hitem, List.map_append, List.map_append, List.map_singleton,
      List.map_singleton, hcontent]
    exact h.content.append_right _
  · rw [hid, sumOfItems_put_report, hr']
    show sumOfItems (d.put (.item y)) r.tenantID r.reportID = _
    rw [h.fresh.tenant]
  · intro i v hi
    have hi' := h.kept i v hi
    have hne : (Version.item y).id ≠ i := by
      rintro rfl
      simp [Database.get, Version.id, hnone] at hi'
    have hne' : (Version.report r').id ≠ i := by
      rintro rfl
      simp [Database.get, Version.id, hid, h.new] at hi
    rw [Database.get_put, if_neg hne', Database.get_put, if_neg hne]
    exact hi'
  · intro i v hi
    rw [Database.get_put] at hi
    split at hi
    · cases hi
      exact .inr (.inl rfl)
    · rename_i hne'
      rw [Database.get_put] at hi
      split at hi
      · cases hi
        exact .inr (.inr ⟨y, rfl, by rw [hid]; exact hitem⟩)
      · rcases h.added i v hi with hold | rfl | ⟨z, rfl, hz⟩
        · exact .inl hold
        · -- The old version of the new report.
          refine absurd ?_ hne'
          rw [← Database.id_of_get hi]
          exact congrArg RowId.report hid
        · exact .inr (.inr ⟨z, rfl, by rw [hid]; exact hz⟩)

/-- **The loop**, by induction on the items that are left. -/
theorem CopiedSoFar.loop {xs : List ExpenseItem} {r₀ : ExpenseReport} (h : CopiedSoFar actor d₀ done d r)
    (hr₀ : r₀.reportID = r.reportID)
    (hamount : ∀ x ∈ items, -2 ^ 31 ≤ x.amount ∧ x.amount < 2 ^ 31)
    (hdesc : ∀ x ∈ items, varchar 500 x.description = .ok x.description)
    (hgives : GivesAlone env (Svc.each (ReportService.copyItem actor r₀) items) (.inside db clock d n) xs s') :
    ∃ d' r' n', s' = .inside db clock d' n' ∧ r'.reportID = r₀.reportID ∧
      CopiedSoFar actor d₀ (done ++ items) d' r' := by
  induction items generalizing d n r done xs with
  | nil =>
    refine ⟨d, r, n, (gives_pure.mp hgives).2, hr₀.symm, ?_⟩
    rw [List.append_nil]
    exact h
  | cons x items ih =>
    obtain ⟨hax, hamounts⟩ := List.forall_mem_cons.mp hamount
    obtain ⟨hdx, hdescs⟩ := List.forall_mem_cons.mp hdesc
    obtain ⟨y, s₁, hy, hgives⟩ := gives_bind.mp hgives
    unfold ReportService.copyItem at hy
    rw [hr₀] at hy
    obtain ⟨d₁, r₁, n₁, rfl, hid, h₁⟩ := h.copy hax hdx hy
    obtain ⟨ys, s₂, hys, hgives⟩ := gives_bind.mp hgives
    obtain ⟨rfl, rfl⟩ := gives_pure.mp hgives
    obtain ⟨d', r', n', rfl, hid', h'⟩ := ih h₁ (hr₀.trans hid.symm) hamounts hdescs hys
    refine ⟨d', r', n', rfl, hid', ?_⟩
    rw [List.append_assoc] at h'
    exact h'

/-- The new report, before anything is copied. -/
theorem copied_of_created {p : Sql.CreateReportParams} {o : Oracle} (hd : WellStored d)
    (hrow : reportRow p d clock o = .ok r) (hp : p.tenantID = actor.tenantID ∧ p.userID = actor.userID)
    (hnone : d.reports.find r.reportID = none) : CopiedSoFar actor d [] (d.put (.report r)) r := by
  obtain ⟨title, _, heq⟩ := reportRow_ok hrow
  have hnil : liveItems (d.put (.report r)) actor.tenantID r.reportID = [] := by
    rw [liveItems_eq]
    refine List.filter_eq_nil_iff.mpr fun x hx hof => ?_
    simp only [itemOf, Bool.and_eq_true, decide_eq_true_eq] at hof
    have hthere := hd.item x.itemID x (Table.find_of_mem hx)
    rw [hof.1.2, hnone] at hthere
    cases hthere
  refine ⟨?_, hnone, Table.find_put_self, ?_, ?_, ?_, ?_⟩
  · rw [heq]
    exact ⟨hp.1, hp.2, rfl, rfl, ⟨rfl, rfl⟩, ⟨rfl, rfl, rfl⟩, ⟨rfl, rfl, rfl⟩, ⟨rfl, rfl⟩⟩
  · rw [hnil]
  · unfold sumOfItems
    rw [hnil, heq]
    rfl
  · intro i v hi
    have hne : (Version.report r).id ≠ i := by
      rintro rfl
      simp [Database.get, Version.id, hnone] at hi
    rw [Database.get_put, if_neg hne]
    exact hi
  · intro i v hi
    rw [Database.get_put] at hi
    split at hi
    · cases hi
      exact .inr (.inl rfl)
    · exact .inl hi

end

/-! ## The whole request -/

section

variable {env : Nat → Oracle} {db d d' : Database} {clock : Oracle} {n : Nat} {s' : Solo server}
  {actor : Actor} {params : CreateReportParams} {k : UUID}

/-- A resubmission that gives a result. -/
theorem resubmitted_of_gives {det : ExpenseReportDetail} (hd : WellStored d)
    (hk : params.referenceReportID = some k)
    (h : GivesAlone env (ReportService.createReport actor params) (.inside db clock d n) det s') :
    Resubmittable actor d k ∧ ∃ r, Resubmitted actor d k s'.committed r := by
  unfold ReportService.createReport at h
  rw [hk] at h
  obtain ⟨_, s₁, hcheck, h⟩ := gives_bind.mp h
  obtain ⟨⟨ref, hfirst, howner, hstatus⟩, rfl⟩ := gives_checkReference.mp hcheck
  obtain ⟨hfind, htenant, _⟩ := find_of_reportIs hfirst
  have hlive : ref.deletedAt = none := by
    obtain ⟨_, his⟩ := reportRows.mem_of_first hfirst
    simp only [reportIs, Bool.and_eq_true, Option.isNone_iff_eq_none] at his
    exact his.2
  refine ⟨⟨ref, hfind, htenant, howner, hlive, hstatus⟩, ?_⟩
  obtain ⟨r₀, s₂, hcreate, h⟩ := gives_bind.mp h
  obtain ⟨hrow, hnone, rfl⟩ := gives_createReport.mp (gives_errorf.mp (gives_errorf.mp hcreate))
  have hcreated : CopiedSoFar actor d [] (d.put (.report r₀)) r₀ := copied_of_created hd hrow ⟨rfl, rfl⟩ hnone
  obtain ⟨reloaded, s₃, hcopy, hdetail⟩ := gives_bind.mp h
  obtain ⟨items, s₄, hitems, hcopy⟩ := gives_bind.mp hcopy
  obtain ⟨rfl, rfl⟩ := gives_listItems.mp (gives_errorf.mp hitems)
  obtain ⟨xs, s₅, hxs, hreload⟩ := gives_bind.mp hcopy
  -- The items that are listed are in the database as it was.
  have hmem : ∀ x ∈ orderBy (fun i => asc i.createdAt ++ asc ((env (n + 1 + 1)).rank i.itemID))
      (itemRows.filter (itemOf actor.tenantID k) (d.put (.report r₀))), d.items.find x.itemID = some x := by
    intro x hx
    exact Table.find_of_mem (List.mem_filter.mp (perm_orderBy.mem_iff.mp hx)).1
  obtain ⟨d₁, r, n₁, rfl, hid, hcopied⟩ := hcreated.loop rfl (fun x hx => hd.amount _ x (hmem x hx))
    (fun x hx => hd.description _ x (hmem x hx)) hxs
  -- What follows only looks things up.
  obtain ⟨n₂, rfl⟩ := inside_of_looks (t := actor.tenantID) (looks_errorf looks_getReport) hreload
  obtain ⟨n₃, rfl⟩ := inside_of_looks looks_buildDetail hdetail
  have hperm : (liveItems d₁ actor.tenantID r.reportID |>.map ExpenseItem.content).Perm
      ((liveItems d actor.tenantID k).map ExpenseItem.content) := by
    refine hcopied.content.trans ?_
    rw [List.nil_append, liveItems_eq]
    exact perm_orderBy.map _
  refine ⟨r, ⟨hcopied.fresh, hcopied.new, hcopied.there, hperm, hcopied.total, hcopied.kept, hcopied.added⟩, ?_⟩
  intro i a ha heq
  -- An attachment was there before, and so was its report.
  have hget : d₁.get (.attachment i) = some (.attachment a) := congrArg (Option.map Version.attachment) ha
  rcases hcopied.added _ _ hget with hold | hnew | ⟨x, hnew, _⟩
  · simp only [Database.get, Option.map_eq_some_iff, Version.attachment.injEq, exists_eq_right] at hold
    have hthere := hd.attachment i a hold
    rw [heq, hcopied.new] at hthere
    cases hthere
  · cases hnew
  · cases hnew

/--
**Resubmission copies exactly the items, or does nothing.** A request that creates
a report with a reference succeeds only if that is a rejected report of the
actor's; then there is one new draft with the items of that report, and every
other row is as it was. A request that is answered with an error has committed
nothing and holds nothing, whichever of its commands failed.
-/
theorem resubmission (hd : WellStored d) (hk : params.referenceReportID = some k) :
    (∀ env p d', server.serve env (.tenant actor (.createReport params)) d = (.ok p, d') →
      Resubmittable actor d k ∧ ∃ r, Resubmitted actor d k d' r) ∧
    (∀ (C : World server → Action server → Prop) w i s err, Reachable C (.init d) w →
      w.sessions[i]? = some s → s.call = .tenant actor (.createReport params) →
      s.prog = .ret (.error err) → s.writes = [] ∧ ∀ f ∈ w.log, f.sess ≠ i) := by
  constructor
  · intro env p d' h
    obtain ⟨_, s', hs, rfl⟩ := serve_tenant.mp h
    obtain ⟨det, hdet, _⟩ := gives_map.mp hs
    exact resubmitted_of_gives hd hk hdet
  · intro C w i s err hw hs hcall hp
    exact ⟨Session.writes_of_closed (hw.closed_of_returned placed_call hs hp),
      uncommitted_of_error hw hs hcall hp⟩

end

namespace Sample

/-- The report of the small tenant, after it was rejected. -/
def rejectedReport : ExpenseReport :=
  { report with
    status := .rejected, submittedBy := some 20, submittedAt := some 6, rejectedBy := some 21
    rejectedAt := some 7, rejectionReason := some "no receipt" }

/-- Another item of it. -/
def taxi : ExpenseItem := { item with itemID := 3, amount := 40, description := "taxi", createdAt := 6 }

/-- One that was deleted. -/
def dinner : ExpenseItem :=
  { item with itemID := 4, amount := 70, description := "dinner", createdAt := 6, deletedAt := some 6 }

/-- The receipt of its first item. -/
def receipt : Attachment :=
  { (default : Attachment) with
    attachmentID := 8, itemID := 2, reportID := 1, tenantID := 10, fileName := "train.pdf", fileSize := 1 }

def rejected : Database :=
  { database with
    reports := database.reports.put rejectedReport
    items := (database.items.put taxi).put dinner
    attachments := database.attachments.put receipt }

/-- Once more. -/
def again : CreateReportParams := ⟨"trip", ⟨2024, 1, 1⟩, ⟨2024, 1, 31⟩, some 1, ne_of_beq_false rfl, rfl⟩

/-- The owner resubmits the report, alone. -/
def resubmitting : Outcome × Database :=
  server.serve (fun n => Oracle.at (100 + n)) (.tenant owner (.createReport again)) rejected

end Sample

theorem Sample.wellStored : WellStored Sample.rejected := by
  have hitem : ∀ {k x}, Sample.rejected.items.find k = some x →
      x = Sample.item ∨ x = Sample.taxi ∨ x = Sample.dinner := by
    intro k x h
    have hmem : x ∈ [Sample.item, Sample.taxi, Sample.dinner] := Table.mem_of_find h
    simpa using hmem
  refine ⟨fun k x h => ?_, fun k x h => ?_, fun k x h => ?_, fun k a h => ?_⟩
  · rcases hitem h with rfl | rfl | rfl <;> decide
  · rcases hitem h with rfl | rfl | rfl <;> rfl
  · rcases hitem h with rfl | rfl | rfl <;> decide
  · have hmem : a ∈ [Sample.receipt] := Table.mem_of_find h
    rw [List.mem_singleton.mp hmem]
    decide

/-- Two items are copied, and the deleted one and the receipt are not. -/
theorem resubmission_of_rejected : ∃ p r, Sample.resubmitting.1 = .ok p ∧ r.totalAmount = 140 ∧
    (liveItems Sample.resubmitting.2 10 r.reportID).length = 2 ∧
    Resubmitted Sample.owner Sample.rejected 1 Sample.resubmitting.2 r := by
  obtain ⟨p, hp⟩ : ∃ p, Sample.resubmitting = (.ok p, Sample.resubmitting.2) := ⟨_, rfl⟩
  obtain ⟨_, r, hr⟩ := (@resubmission _ _ Sample.again _ Sample.wellStored rfl).1 _ p _ hp
  have hcopy : ∀ x ∈ Sample.resubmitting.2.reports.rows, x.status = .draft →
      x.totalAmount = 140 ∧ (liveItems Sample.resubmitting.2 10 x.reportID).length = 2 := by
    decide +kernel
  obtain ⟨htotal, hitems⟩ := hcopy r (Table.mem_of_find hr.there) hr.fresh.draft
  exact ⟨p, r, congrArg Prod.fst hp, htotal, hitems, hr⟩

end ExpenseSaas
