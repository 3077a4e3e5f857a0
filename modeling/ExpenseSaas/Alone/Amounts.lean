import ExpenseSaas.Alone.Statements
import ExpenseSaas.Runs.Schedules

/-!
# Amounts, from the request to the row

What becomes of an amount on its way through the handler, the entity, the `int32`
of the repository and the `INTEGER` column, and of the sum that is kept of them,
when one request runs alone.
-/

namespace ExpenseSaas

open ReadCommitted Sql

section

variable {env : Nat → Oracle} {db d d' : Database} {clock : Oracle} {n : Nat} {s s' : Solo server}
  {actor : Actor} {k : UUID} {v : Timestamp} {r r' : ExpenseReport} {det : ExpenseReportDetail}

/-! ## The total of a submitted report -/

theorem totalAmount_of_buildDetail (h : GivesAlone env (ReportService.buildDetail actor r) s det s') :
    det.totalAmount = r.totalAmount := by
  obtain ⟨submitter, s₁, _, h⟩ := gives_bind.mp h
  obtain ⟨_, s₂, _, h⟩ := gives_bind.mp h
  obtain ⟨_, s₃, _, h⟩ := gives_bind.mp h
  obtain ⟨_, s₄, _, h⟩ := gives_bind.mp h
  obtain ⟨_, s₅, _, h⟩ := gives_bind.mp h
  obtain ⟨_, s₆, _, h⟩ := gives_bind.mp h
  obtain ⟨_, s₇, _, h⟩ := gives_bind.mp h
  rw [(gives_pure.mp h).1]
  rfl

/-- What a submission writes: the stored row, with the total it had. -/
theorem submit_alone (h : GivesAlone env (ReportService.submitReport actor k v) (.inside db clock d n) det s') :
    ∃ r r' n', reportRows.first (reportIs actor.tenantID k) d = some r ∧ r'.reportID = k ∧
      r'.totalAmount = r.totalAmount ∧ det.totalAmount = r'.totalAmount ∧
      s' = .inside db clock (d.put (.report r')) n' := by
  obtain ⟨r, s₁, hr, h⟩ := gives_bind.mp h
  obtain ⟨hfirst, rfl⟩ := gives_getReport.mp hr
  obtain ⟨_, s₂, hm, h⟩ := gives_bind.mp h
  obtain ⟨_, rfl⟩ := gives_demand.mp hm
  obtain ⟨_, h⟩ := gives_unless.mp h
  obtain ⟨b, s₃, hb, h⟩ := gives_bind.mp h
  obtain ⟨_, rfl⟩ := gives_hasApprover.mp (gives_errorf.mp hb)
  obtain ⟨items, s₄, hi, h⟩ := gives_bind.mp h
  obtain ⟨_, rfl⟩ := gives_listItems.mp (gives_errorf.mp hi)
  obtain ⟨now, s₅, hnow, h⟩ := gives_bind.mp h
  obtain ⟨_, rfl⟩ := gives_ext.mp hnow
  obtain ⟨submitted, s₆, hsub, h⟩ := gives_bind.mp h
  obtain ⟨hs, rfl⟩ := gives_demand.mp hsub
  obtain ⟨r', s₇, hu, hdetail⟩ := gives_bind.mp h
  obtain ⟨old, hold, hset, rfl⟩ := gives_updateStatus.mp hu
  obtain ⟨n', rfl⟩ := inside_of_looks looks_buildDetail hdetail
  -- The row that is written again is the one that was read.
  obtain ⟨hfind, htenant, hid⟩ := find_of_reportIs hfirst
  obtain ⟨_, _, _, rfl⟩ := submit_ok hs
  obtain ⟨hmem, hcond⟩ := reportRows.mem_of_first hold
  have hold' : reportRows.first (reportIs actor.tenantID k) d = some old := by
    rw [Bool.and_eq_true, htenant, hid] at hcond
    refine (Relation.first_of_key fun x => id_of_reportIs).mpr ⟨?_, hcond.1⟩
    rw [reportRows.find_eq_some, ← id_of_reportIs hcond.1]
    exact (reportRows.mem_rows d old).mp hmem
  cases hfirst.symm.trans hold'
  obtain ⟨comment, reason, _, _, hr'⟩ := setReportStatus_ok hset
  have hkept : r'.reportID = r.reportID ∧ r'.totalAmount = r.totalAmount := by
    rw [hr']
    exact ⟨rfl, rfl⟩
  exact ⟨r, r', n', hfirst, hkept.1.trans hid, hkept.2, totalAmount_of_buildDetail hdetail, rfl⟩

/-- The live items of the report are the same after a report was written. -/
theorem sumOfItems_put_report {t : UUID} : sumOfItems (d.put (.report r)) t k = sumOfItems d t k := rfl

/--
**A submission keeps the total that was stored.** After one that succeeds, the
stored total and the one in the response are the sum of the live items exactly
when the stored one was so before.
-/
theorem submit_total_iff (hr : d.reports.find k = some r)
    (h : server.serve env (.tenant actor (.submitReport k v)) d = (.ok (.detail det), d')) :
    (det.totalAmount = sumOfItems d' actor.tenantID k ∧
      ∃ r', d'.reports.find k = some r' ∧ r'.totalAmount = sumOfItems d' actor.tenantID k) ↔
    r.totalAmount = sumOfItems d actor.tenantID k := by
  obtain ⟨_, s', hs, rfl⟩ := serve_tenant.mp h
  obtain ⟨det', hdet, heq⟩ := gives_map.mp hs
  cases heq
  obtain ⟨x, r', n', hfirst, hid, htotal, hdetail, rfl⟩ := submit_alone hdet
  cases hr.symm.trans (find_of_reportIs hfirst).1
  have hfind : (d.put (.report r')).reports.find k = some r' := by
    rw [← hid]
    exact Table.find_put_self
  rw [Solo.committed_inside, sumOfItems_put_report, hdetail, htotal]
  constructor
  · exact fun h => h.1
  · intro h
    exact ⟨h, r', hfind, htotal.trans h⟩

end

/-- A report that was stored with a total that is not the sum of its items. -/
def Sample.staleTotal : Database :=
  { Sample.database with reports := Table.empty.put { Sample.report with totalAmount := 7 } }

/-- The owner submits the report, alone. -/
def Sample.submission (d : Database) : Outcome × Database :=
  server.serve (fun _ => Oracle.at 9) (.tenant Sample.owner (.submitReport 1 5)) d

/-- The detail in a response. -/
def Sample.detailOf : Outcome → ExpenseReportDetail
  | .ok (.detail det) => det
  | _ => (default : ExpenseReport).toDetail default

theorem submit_total_of_sum : (Sample.detailOf (Sample.submission Sample.database).1).totalAmount = 100 := by
  have h : Sample.submission Sample.database =
      (.ok (.detail (Sample.detailOf (Sample.submission Sample.database).1)), (Sample.submission Sample.database).2) := rfl
  exact ((submit_total_iff (r := Sample.report) rfl h).mpr rfl).1

theorem stale_of_submit : (Sample.submission Sample.staleTotal).1.toBool = true ∧
    (Sample.detailOf (Sample.submission Sample.staleTotal).1).totalAmount = 7 ∧
    ((Sample.submission Sample.staleTotal).2.reports.find 1).map ExpenseReport.totalAmount = some 7 ∧
    sumOfItems (Sample.submission Sample.staleTotal).2 10 1 = 100 := by
  decide

/-! ## The amount of an item -/

section

variable {d : Database} {t k : UUID} {i : ExpenseItem}

/-- What an item adds to the total of a report. -/
def worth (t k : UUID) (i : ExpenseItem) : Int := if itemOf t k i then i.amount else 0

/-- The subquery of the total selects what `WHERE` selects elsewhere. -/
theorem liveItems_eq : liveItems d t k = itemRows.filter (itemOf t k) d := by
  refine List.filter_congr fun i _ => ?_
  simp only [itemOf, Bool.and_comm (decide (i.reportID = k))]

theorem sumOfItems_eq_worth : sumOfItems d t k = (d.items.rows.map (worth t k)).sum := by
  have hsum : ∀ l : List ExpenseItem,
      ((l.filter (itemOf t k)).map ExpenseItem.amount).sum = (l.map (worth t k)).sum := by
    intro l
    induction l with
    | nil => rfl
    | cons i is ih =>
      rw [List.filter_cons, List.map_cons, List.sum_cons, ← ih]
      unfold worth
      split
      · rfl
      · exact (zero_add _).symm
  unfold sumOfItems
  rw [liveItems_eq]
  exact hsum _

/-- An item that is written takes the place of the old one in the sum. -/
theorem sumOfItems_put_item : sumOfItems (d.put (.item i)) t k =
    sumOfItems d t k - ((d.items.find i.itemID).map (worth t k)).getD 0 + worth t k i := by
  rw [sumOfItems_eq_worth, sumOfItems_eq_worth]
  exact Table.sum_put

end

/-- An edit of an item, alone: the item is written, and the total of its report after it. -/
structure Edited (actor : Actor) (k : UUID) (amount : Int) (old : Option ExpenseItem) (d : Database)
    (dto : ExpenseItemDTO) (d' : Database) (i : ExpenseItem) (r' : ExpenseReport) : Prop where
  amount_eq : i.amount = int32 amount
  live : itemOf actor.tenantID k i = true
  find : d.items.find i.itemID = old
  reportID : r'.reportID = k
  total : r'.totalAmount = sumOfItems (d.put (.item i)) actor.tenantID k
  id_eq : dto.id = i.itemID
  shows : dto.amount = i.amount
  leaves : d' = (d.put (.item i)).put (.report r')

section

variable {env : Nat → Oracle} {db d d' : Database} {clock : Oracle} {n : Nat} {s s' : Solo server}
  {actor : Actor} {k : UUID} {r : ExpenseReport} {i : ExpenseItem} {dto : ExpenseItemDTO}

theorem shows_of_buildItemDTO (h : GivesAlone env (ItemService.buildItemDTO actor i) s dto s') :
    dto.id = i.itemID ∧ dto.amount = i.amount := by
  obtain ⟨_, s₁, _, h⟩ := gives_bind.mp h
  obtain ⟨_, s₂, _, h⟩ := gives_bind.mp h
  rw [(gives_pure.mp h).1]
  exact ⟨rfl, rfl⟩

/-- The end of an edit: the item is stored, the total is written, the item is shown. -/
theorem edited_of_written {amount : Int} {old : Option ExpenseItem} {u : Unit} {s₁ : Solo server}
    (hr : reportRows.first (reportIs actor.tenantID k) d = some r) (hamount : i.amount = int32 amount)
    (hlive : itemOf actor.tenantID k i = true) (hold : d.items.find i.itemID = old)
    (htotal : GivesAlone env (sql (.updateReportTotalAmount actor.tenantID k))
      (.inside db clock (d.put (.item i)) n) u s₁)
    (hdto : GivesAlone env (ItemService.buildItemDTO actor i) s₁ dto s') :
    ∃ r', Edited actor k amount old d dto s'.committed i r' := by
  obtain ⟨hfind, htenant, hid⟩ := find_of_reportIs hr
  have hfind' : (d.put (.item i)).reports.find k = some r := hfind
  obtain ⟨r', hset, rfl⟩ := (gives_updateTotal hfind' htenant).mp htotal
  obtain ⟨n', rfl⟩ := inside_of_looks looks_buildItemDTO hdto
  have hr' := setReportTotalAmount_ok hset
  obtain ⟨hshow, hamount'⟩ := shows_of_buildItemDTO hdto
  refine ⟨r', hamount, hlive, hold, ?_, ?_, hshow, hamount', rfl⟩
  · rw [hr']
    exact hid
  · rw [hr', htenant, hid]

/-- `CreateItem` alone. -/
theorem createItem_alone {params : CreateItemParams}
    (h : GivesAlone env (ItemService.createItem actor k params) (.inside db clock d n) dto s') :
    ∃ i r', Edited actor k params.amount none d dto s'.committed i r' := by
  obtain ⟨r, s₁, hr, h⟩ := gives_bind.mp h
  obtain ⟨⟨hfirst, _, _⟩, rfl⟩ := gives_editableReport.mp hr
  obtain ⟨_, s₂, hv, h⟩ := gives_bind.mp h
  obtain ⟨_, rfl⟩ := gives_demand.mp hv
  obtain ⟨_, s₃, hc, h⟩ := gives_bind.mp h
  obtain ⟨_, rfl⟩ := gives_getCategory.mp hc
  obtain ⟨created, s₄, hcreate, hdto⟩ := gives_bind.mp h
  obtain ⟨i, s₅, hi, hrest⟩ := gives_bind.mp (gives_errorf.mp hcreate)
  obtain ⟨hrow, hnone, rfl⟩ := gives_createExpenseItem.mp (gives_errorf.mp hi)
  obtain ⟨u, s₆, htotal, hpure⟩ := gives_bind.mp hrest
  obtain ⟨rfl, rfl⟩ := gives_pure.mp hpure
  obtain ⟨description, _, heq⟩ := itemRow_ok hrow
  refine ⟨created, edited_of_written hfirst ?_ ?_ hnone (gives_errorf.mp htotal) hdto⟩
  · rw [heq]
  · rw [heq]
    simp [itemOf]

/-- `UpdateItem` alone. -/
theorem updateItem_alone {params : UpdateItemParams} {itemID : UUID}
    (h : GivesAlone env (ItemService.updateItem actor k itemID params) (.inside db clock d n) dto s') :
    ∃ old i r', itemOf actor.tenantID k old = true ∧ d.items.find itemID = some old ∧
      Edited actor k params.amount (some old) d dto s'.committed i r' := by
  obtain ⟨r, s₁, hr, h⟩ := gives_bind.mp h
  obtain ⟨⟨hfirst, _, _⟩, rfl⟩ := gives_editableReport.mp hr
  obtain ⟨read, s₂, hi, h⟩ := gives_bind.mp h
  obtain ⟨hread, rfl⟩ := gives_getItem.mp hi
  obtain ⟨_, s₃, hv, h⟩ := gives_bind.mp h
  obtain ⟨_, rfl⟩ := gives_demand.mp hv
  obtain ⟨_, s₄, hc, h⟩ := gives_bind.mp h
  obtain ⟨_, rfl⟩ := gives_getCategory.mp hc
  obtain ⟨i, s₅, hup, hdto⟩ := gives_bind.mp h
  obtain ⟨row, s₆, hrow, hup⟩ := gives_bind.mp hup
  obtain ⟨written, s₇, hwritten, hrest⟩ := gives_bind.mp hup
  obtain ⟨old, hold, hset, rfl⟩ := gives_updateExpenseItem.mp (gives_bind.mpr ⟨row, s₆, hrow, hwritten⟩)
  obtain ⟨u, s₈, htotal, hpure⟩ := gives_bind.mp hrest
  obtain ⟨rfl, rfl⟩ := gives_pure.mp hpure
  -- The row that is written is the one that was read, in the report that was read.
  obtain ⟨hreadfind, hreadlive⟩ := find_of_itemIs hread
  simp only [itemOf, Bool.and_eq_true, decide_eq_true_eq] at hreadlive
  obtain ⟨⟨hreadtenant, hreadreport⟩, _⟩ := hreadlive
  obtain ⟨hmem, hcond⟩ := itemRows.mem_of_first hold
  simp only [itemOf, Bool.and_eq_true, decide_eq_true_eq, hreadtenant, hreadreport] at hcond
  obtain ⟨⟨⟨⟨htenant, hreport⟩, hlive⟩, hid⟩, _⟩ := hcond
  obtain ⟨description, heq⟩ := setItem_ok hset
  have htenant' : i.tenantID = actor.tenantID := by
    rw [heq]
    exact htenant
  have hreport' : i.reportID = k := by
    rw [heq]
    exact hreport
  have hlive' : itemOf actor.tenantID k i = true := by
    rw [heq]
    simp [itemOf, htenant, hreport, hlive]
  have hfind : d.items.find i.itemID = some old := by
    rw [heq]
    exact Table.find_of_mem hmem
  rw [htenant', hreport'] at htotal
  have hamount : i.amount = int32 params.amount := by rw [heq]
  obtain ⟨r', hedited⟩ := edited_of_written hfirst hamount hlive' hfind (gives_errorf.mp htotal) hdto
  refine ⟨old, i, r', ?_, ?_, hedited⟩
  · simp [itemOf, htenant, hreport, hlive]
  · rw [← Table.key_of_find hreadfind, ← hid]
    exact Table.find_of_mem hmem

end

/-- A request that writes an amount. -/
inductive ItemEdit where
  | create (params : CreateItemParams)
  | update (itemID : UUID) (params : UpdateItemParams)

namespace ItemEdit

def endpoint (k : UUID) : ItemEdit → Endpoint
  | .create params => .createItem k params
  | .update itemID params => .updateItem k itemID params

/-- The amount that is asked for. -/
def amount : ItemEdit → Int
  | .create params => params.amount
  | .update _ params => params.amount

/-- The amount the item had. -/
def oldAmount (d : Database) : ItemEdit → Int
  | .create _ => 0
  | .update itemID _ => ((d.items.find itemID).map ExpenseItem.amount).getD 0

theorem amount_pos : ∀ e : ItemEdit, 0 < e.amount := by
  intro e
  cases e with
  | create params => exact params.amount_pos
  | update itemID params => exact params.amount_pos

end ItemEdit

section

variable {env : Nat → Oracle} {d d' : Database} {actor : Actor} {k : UUID} {r : ExpenseReport} {edit : ItemEdit}
  {dto : ExpenseItemDTO}

/-- Both edits, with what the old row was worth to the report. -/
theorem edited_alone (h : server.serve env (.tenant actor (edit.endpoint k)) d = (.ok (.item dto), d')) :
    ∃ old i r', Edited actor k edit.amount old d dto d' i r' ∧
      (old.map (worth actor.tenantID k)).getD 0 = edit.oldAmount d := by
  obtain ⟨_, s', hs, rfl⟩ := serve_tenant.mp h
  cases edit with
  | create params =>
    obtain ⟨dto', hdto, heq⟩ := gives_map.mp hs
    cases heq
    obtain ⟨i, r', hedited⟩ := createItem_alone hdto
    exact ⟨none, i, r', hedited, rfl⟩
  | update itemID params =>
    obtain ⟨dto', hdto, heq⟩ := gives_map.mp hs
    cases heq
    obtain ⟨old, i, r', hlive, hfind, hedited⟩ := updateItem_alone hdto
    refine ⟨some old, i, r', hedited, ?_⟩
    simp [worth, hlive, ItemEdit.oldAmount, hfind]

/--
**Amounts are exact up to 2³¹ − 1.** After a `CreateItem` or an `UpdateItem` that
succeeds, on a report whose total was the sum of its items, the stored amount and
the one in the response are the one asked for, and the total has changed by the
difference, exactly when the amount asked for is less than 2³¹.
-/
theorem amount_exact_iff (_hr : d.reports.find k = some r)
    (htotal : r.totalAmount = sumOfItems d actor.tenantID k)
    (h : server.serve env (.tenant actor (edit.endpoint k)) d = (.ok (.item dto), d')) :
    (dto.amount = edit.amount ∧ (∃ i, d'.items.find dto.id = some i ∧ i.amount = edit.amount) ∧
      ∃ r', d'.reports.find k = some r' ∧
        r'.totalAmount = r.totalAmount + (edit.amount - edit.oldAmount d)) ↔ edit.amount < 2 ^ 31 := by
  obtain ⟨old, i, r', hedited, hold⟩ := edited_alone h
  rw [← int32_eq_self (Int.le_of_lt edit.amount_pos)]
  have hsum : r'.totalAmount = r.totalAmount + (int32 edit.amount - edit.oldAmount d) := by
    have hworth : worth actor.tenantID k i = int32 edit.amount := by
      rw [← hedited.amount_eq]
      exact if_pos hedited.live
    rw [hedited.total, sumOfItems_put_item, hedited.find, hold, hworth, htotal]
    omega
  have hitem : d'.items.find dto.id = some i := by
    rw [hedited.leaves, hedited.id_eq]
    exact Table.find_put_self
  have hreport : d'.reports.find k = some r' := by
    rw [hedited.leaves, ← hedited.reportID]
    exact Table.find_put_self
  constructor
  · rintro ⟨hdto, _⟩
    rw [← hedited.amount_eq, ← hedited.shows]
    exact hdto
  · intro hexact
    have hi : i.amount = edit.amount := hedited.amount_eq.trans hexact
    exact ⟨hedited.shows.trans hi, ⟨i, hitem, hi⟩, r', hreport, by rw [hsum, hexact]⟩

end

/-- An item whose amount is more than 32 bits. -/
def Sample.hugeItem : CreateItemParams :=
  ⟨⟨2024, 1, 1⟩, 2 ^ 32 + 5, 30, "yacht", by decide, by decide, by decide⟩

/-- The owner adds the item, alone. -/
def Sample.addition (params : CreateItemParams) : Outcome × Database :=
  server.serve (fun _ => Oracle.at 9) (.tenant Sample.owner ((ItemEdit.create params).endpoint 1)) Sample.database

/-- The item in a response. -/
def Sample.itemOf : Outcome → ExpenseItemDTO
  | .ok (.item dto) => dto
  | _ => Sample.item.toDTO default []

theorem amount_exact_of_taxi : (Sample.itemOf (Sample.addition Sample.newItem).1).amount = 7 := by
  have h : Sample.addition Sample.newItem =
      (.ok (.item (Sample.itemOf (Sample.addition Sample.newItem).1)), (Sample.addition Sample.newItem).2) := rfl
  exact ((amount_exact_iff (r := Sample.report) rfl rfl h).mpr (by decide)).1

theorem truncated_of_yacht : (Sample.addition Sample.hugeItem).1.toBool = true ∧
    Sample.report.totalAmount = sumOfItems Sample.database 10 1 ∧
    Sample.hugeItem.amount = 4294967301 ∧
    (Sample.itemOf (Sample.addition Sample.hugeItem).1).amount = 5 ∧
    ((Sample.addition Sample.hugeItem).2.reports.find 1).map ExpenseReport.totalAmount = some 105 := by
  decide

end ExpenseSaas
