import ExpenseSaas.Workflow.Checks

/-!
# What a submitted report shows

An approver decides on what a report shows: its header, its live items and its
live attachments (`SameContents`). Once it is submitted these should not change.

Nothing in the database says so. The header is safe when no two transactions
have the same `now()`, because it is written back under the version that was
read. Items and attachments are not: an edit that passed its draft check before
the report was submitted goes through after it. `frozen_of_inTime` says that
this is all that can go wrong, and `Overtaking` is a run in which it does.
-/

namespace ExpenseSaas

open ReadCommitted Sql

/-- The live items of a report, with what they state. -/
def Database.shownItems (d : Database) (k : UUID) : Set (UUID × Date × Int × UUID × String) :=
  {f | ∃ x ∈ d.items.rows, x.reportID = k ∧ x.deletedAt = none ∧
    f = (x.itemID, x.expenseDate, x.amount, x.categoryID, x.description)}

/-- The live attachments of a report. -/
def Database.shownAttachments (d : Database) (k : UUID) : Set Attachment :=
  {a | a ∈ d.attachments.rows ∧ a.reportID = k ∧ a.deletedAt = none}

/-- Report `k` shows the same in both states. -/
structure SameContents (k : UUID) (d d' : Database) : Prop where
  header : ∀ r, d.reports.find k = some r → ∃ r', d'.reports.find k = some r' ∧ SameHeader r r'
  items : d'.shownItems k = d.shownItems k
  attachments : d'.shownAttachments k = d.shownAttachments k

/-- The commit takes report `k` from draft to submitted. -/
def Submits (k : UUID) (d d' : Database) : Prop :=
  ∃ r r', d.reports.find k = some r ∧ r.status = .draft ∧ d'.reports.find k = some r' ∧
    r'.status = .submitted

/-- Once a report was submitted, no later commit changes what it shows. -/
def FrozenOnceSubmitted (log : List (Entry server)) : Prop :=
  ∀ k, log.Pairwise fun e f => Submits k e.pre e.post → SameContents k f.pre f.post

section

variable {C : World server → Action server → Prop} {d₀ : Database} {w : World server} {i : Nat}
  {s : Session server} {k : UUID}

/-- The items of a report there is no permit for are the committed ones. -/
theorem items_of_not_permitted (h : Reachable C (.init d₀) w) (hs : w.sessions[i]? = some s)
    (hp : ¬ Permitted s.trace k s.call) {x : ExpenseItem} (hk : x.reportID = k) :
    x ∈ (s.view w.db).items.rows ↔ x ∈ w.db.items.rows := by
  have hfree : ∀ y : ExpenseItem, y.reportID = k → y ∈ (s.view w.db).items.rows →
      y ∈ w.db.items.rows := by
    intro y hy hmem
    have hget : (s.view w.db).get (.item y.itemID) = some (.item y) :=
      (itemRows.mem_rows _ _).mp hmem
    have hrel := frozen_relates (U := True) (Or.inl trivial) h hs (RowId.item y.itemID)
    rw [show server.get (s.view w.db) (.item y.itemID) = some (.item y) from hget] at hrel
    rcases hrel with hold | hperm
    · exact (itemRows.mem_rows _ _).mpr hold
    · exact absurd (hy ▸ hperm) hp
  refine ⟨hfree x hk, fun hmem => ?_⟩
  obtain ⟨v, hv, hkept⟩ := kept_respected.relates h hs (RowId.item x.itemID) _
    (get_item.mpr (Table.find_of_mem hmem))
  cases v with
  | item y =>
    -- Its current version has no permit either, so it is still the committed one.
    have hy : y ∈ (s.view w.db).items.rows := Table.mem_of_find (get_item.mp hv)
    have hcom := hfree y (hkept.reportID.trans hk) hy
    have hid : y.itemID = x.itemID := Table.key_of_find (get_item.mp hv)
    rwa [← List.inj_on_of_nodup_map w.db.items.nodup hcom hmem hid]
  | _ => exact hkept.elim

theorem attachments_of_not_permitted (h : Reachable C (.init d₀) w)
    (hs : w.sessions[i]? = some s) (hp : ¬ Permitted s.trace k s.call) {x : Attachment}
    (hk : x.reportID = k) :
    x ∈ (s.view w.db).attachments.rows ↔ x ∈ w.db.attachments.rows := by
  have hfree : ∀ y : Attachment, y.reportID = k → y ∈ (s.view w.db).attachments.rows →
      y ∈ w.db.attachments.rows := by
    intro y hy hmem
    have hget : (s.view w.db).get (.attachment y.attachmentID) = some (.attachment y) :=
      (attachmentRows.mem_rows _ _).mp hmem
    have hrel := frozen_relates (U := True) (Or.inl trivial) h hs (RowId.attachment y.attachmentID)
    rw [show server.get (s.view w.db) (.attachment y.attachmentID) = some (.attachment y)
      from hget] at hrel
    rcases hrel with hold | hperm
    · exact (attachmentRows.mem_rows _ _).mpr hold
    · exact absurd (hy ▸ hperm) hp
  refine ⟨hfree x hk, fun hmem => ?_⟩
  obtain ⟨v, hv, hkept⟩ := kept_respected.relates h hs (RowId.attachment x.attachmentID) _
    (get_attachment.mpr (Table.find_of_mem hmem))
  cases v with
  | attachment y =>
    have hy : y ∈ (s.view w.db).attachments.rows := Table.mem_of_find (get_attachment.mp hv)
    have hcom := hfree y (hkept.reportID.trans hk) hy
    have hid : y.attachmentID = x.attachmentID := Table.key_of_find (get_attachment.mp hv)
    rwa [← List.inj_on_of_nodup_map w.db.attachments.nodup hcom hmem hid]
  | _ => exact hkept.elim

/-- The header of a report that has left draft, as a session has it at its commit. -/
theorem header_of_not_permitted {U : Prop} (hU : U ∨ ∀ w a, C w a → DistinctNow d₀ w a)
    (h : Reachable C (.init d₀) w) (hs : w.sessions[i]? = some s)
    (hp : ¬ Permitted s.trace k s.call) (hu : U → ¬ UpdateChecked s.call s.trace k)
    {r : ExpenseReport} (hr : w.db.reports.find k = some r) (hd : r.status ≠ .draft) :
    ∃ r', (s.view w.db).reports.find k = some r' ∧ SameHeader r r' := by
  have hget : w.db.get (.report k) = some (.report r) := get_report.mpr hr
  obtain ⟨v, hv, hkept⟩ := kept_respected.relates h hs (RowId.report k) _ hget
  cases v with
  | report r' =>
    have hid : r'.reportID = k := Table.key_of_find (get_report.mp hv)
    refine ⟨r', get_report.mp hv, ?_⟩
    have hrel := frozen_relates hU h hs (RowId.report k)
    rw [hv] at hrel
    have hrel : ReportRel U s.call s.trace (w.db.get (.report k)) r' := hrel
    rcases hrel.header with hperm | ⟨hu', hupd⟩ | hsame
    · exact absurd (hid ▸ hperm) hp
    · exact absurd (hid ▸ hupd) (hu hu')
    · exact (hsame r hget).resolve_left hd
  | _ => exact hkept.elim

/-- A session with no permit for a report that has left draft leaves what it shows. -/
theorem contents_of_not_permitted {U : Prop} (hU : U ∨ ∀ w a, C w a → DistinctNow d₀ w a)
    (h : Reachable C (.init d₀) w) (hs : w.sessions[i]? = some s)
    (hp : ¬ Permitted s.trace k s.call) (hu : U → ¬ UpdateChecked s.call s.trace k)
    {r : ExpenseReport} (hr : w.db.reports.find k = some r) (hd : r.status ≠ .draft) :
    SameContents k w.db (s.view w.db) where
  header y hy := by
    cases hr.symm.trans hy
    exact header_of_not_permitted hU h hs hp hu hr hd
  items := by
    ext f
    constructor
    · rintro ⟨x, hx, hk, hlive, hf⟩
      exact ⟨x, (items_of_not_permitted h hs hp hk).mp hx, hk, hlive, hf⟩
    · rintro ⟨x, hx, hk, hlive, hf⟩
      exact ⟨x, (items_of_not_permitted h hs hp hk).mpr hx, hk, hlive, hf⟩
  attachments := by
    ext x
    constructor
    · rintro ⟨hx, hk, hlive⟩
      exact ⟨(attachments_of_not_permitted h hs hp hk).mp hx, hk, hlive⟩
    · rintro ⟨hx, hk, hlive⟩
      exact ⟨(attachments_of_not_permitted h hs hp hk).mpr hx, hk, hlive⟩

/-- What each commit leaves as it was. -/
theorem contents_kept (hedit : ∀ w a, C w a → InTime EditChecked w a)
    (hdelete : ∀ w a, C w a → InTime DeleteChecked w a)
    (hupdate : (∀ w a, C w a → InTime UpdateChecked w a) ∨ ∀ w a, C w a → DistinctNow d₀ w a)
    (h : Reachable C (.init d₀) w) : ∀ e ∈ w.log, ∀ k r, e.pre.reports.find k = some r →
      r.status ≠ .draft → SameContents k e.pre e.post := by
  refine h.log_rule (J := fun _ (pre post : Database) => ∀ k r, pre.reports.find k = some r →
    r.status ≠ .draft → SameContents k pre post) (fun {w i o s s' d'} hw hc hs hm => ?_)
  intro k r hr hd
  rw [hm.publishes]
  have hcom := hm.committing
  have hp : ¬ Permitted s.trace k s.call := by
    intro hp
    exact hd (draft_of_permitted hw hs hcom hp (hedit _ _ hc s k hs hcom)
      (hdelete _ _ hc s k hs hcom) hr)
  refine contents_of_not_permitted hupdate hw hs hp (fun hin hu => ?_) hr hd
  obtain ⟨actor, params, hcall, hseen⟩ := hu
  obtain ⟨x, hx, hxs⟩ := draft_of_inTime hw hs hseen
    (hin _ _ hc s k hs hcom ⟨actor, params, hcall, hseen⟩)
  cases hr.symm.trans hx
  exact hd hxs

/--
**A submitted report is frozen, as long as no edit of it comes too late.** In
every run in which no edit and no deletion that has seen a report as a draft
commits after the report has left draft, what a report shows does not change
once it was submitted. Updates have to be in time as well, or no two
transactions have the same `now()`.
-/
theorem frozen_of_inTime (hedit : ∀ w a, C w a → InTime EditChecked w a)
    (hdelete : ∀ w a, C w a → InTime DeleteChecked w a)
    (hupdate : (∀ w a, C w a → InTime UpdateChecked w a) ∨ ∀ w a, C w a → DistinctNow d₀ w a)
    (h : Reachable C (.init d₀) w) : FrozenOnceSubmitted w.log := by
  intro k
  refine List.Pairwise.imp_of_mem ?_ (kept_respected.pairwise h)
  rintro e f _ hf hkept ⟨_, r, _, _, hr, hst⟩
  -- The report has left draft for good by the time of the later commit.
  obtain ⟨v, hv, hk⟩ := hkept (RowId.report k) _ (get_report.mpr hr)
  cases v with
  | report x =>
    refine contents_kept hedit hdelete hupdate h f hf k x (get_report.mp hv) (hk.left ?_)
    rw [hst]
    exact nofun
  | _ => exact hk.elim

end

/-! ## Two runs -/

namespace Sample

/-- The owner adds an item and submits, and the approver approves. -/
def addSubmitApprove : List (Action server) :=
  [.start (.tenant owner (.createItem 1 newItem))] ++ turns 0 11 100 ++
    [.start (.tenant owner (.submitReport 1 100))] ++ turns 1 16 200 ++
    [.start (.tenant approver (.approveReport 1 none 200))] ++ turns 2 11 300

/-- The owner starts to add an item, submits in another window, and then the item is added. -/
def lateItem : List (Action server) :=
  [.start (.tenant owner (.createItem 1 newItem))] ++ turns 0 3 100 ++
    [.start (.tenant owner (.submitReport 1 5))] ++ turns 1 15 200 ++ turns 0 8 300

end Sample

/-- What was submitted here is what was approved. -/
theorem frozen_of_addSubmitApprove : ∃ w : World server,
    Reachable (fun w a => uniqueTimes Sample.database w a = true ∧ beforeAnyCommit w a = true)
      (.init Sample.database) w ∧ w.log.length = 3 ∧ FrozenOnceSubmitted w.log := by
  have hrun : ((World.init Sample.database : World server).run
      (fun w a => uniqueTimes Sample.database w a && beforeAnyCommit w a)
      Sample.addSubmitApprove).any (fun w => w.log.length = 3) = true := by
    decide +kernel
  obtain ⟨w, hw, hlog⟩ := exists_of_run (fun _ _ h => Bool.and_eq_true_iff.mp h) hrun
  exact ⟨w, hw, by simpa using hlog, frozen_of_inTime
    (fun _ _ h => (inTime_of_beforeAnyCommit h.2).1) (fun _ _ h => (inTime_of_beforeAnyCommit h.2).2)
    (Or.inr fun _ _ h => distinctNow_of_uniqueTimes _ _ h.1) hw⟩

/-- The first commit submits report 1, and the second changes its total. -/
def changesSubmitted : List (Entry server) → Bool
  | [e, f] => (e.pre.reports.find 1).any (fun r => r.status = .draft)
      && (e.post.reports.find 1).any (fun r => r.status = .submitted)
      && (f.pre.reports.find 1).any fun r =>
        (f.post.reports.find 1).any fun r' => r'.totalAmount ≠ r.totalAmount
  | _ => false

/-- **An item is added to a report that was submitted already.** -/
theorem not_frozen_of_lateItem : ∃ w : World server,
    Reachable (DistinctNow Sample.database) (.init Sample.database) w ∧
      ¬ FrozenOnceSubmitted w.log := by
  have hrun : ((World.init Sample.database : World server).run (uniqueTimes Sample.database)
      Sample.lateItem).any (fun w => changesSubmitted w.log) = true := by
    decide +kernel
  obtain ⟨w, hw, hlog⟩ := exists_of_run distinctNow_of_uniqueTimes hrun
  refine ⟨w, hw, fun hfrozen => ?_⟩
  have hpair := hfrozen 1
  unfold changesSubmitted at hlog
  split at hlog
  · rename_i e f he
    simp only [Bool.and_eq_true, Option.any_eq_true, decide_eq_true_eq] at hlog
    obtain ⟨⟨⟨r, hr, hd⟩, r', hr', hst⟩, x, hx, x', hx', htotal⟩ := hlog
    rw [he, List.pairwise_cons] at hpair
    have hsame := hpair.1 f (by simp) ⟨r, r', hr, hd, hr', hst⟩
    obtain ⟨y, hy, hheader⟩ := hsame.header x hx
    cases hx'.symm.trans hy
    exact htotal hheader.totalAmount
  · cases hlog

end ExpenseSaas
