import ExpenseSaas.Workflow.Freeze

/-!
# Only drafts are deleted

Deleting a report soft-deletes its items, its attachments and then the report
itself, each by an update that asks for no status. All that keeps a submitted
report from being deleted is the check made before the first of them, so it
takes one submission between the check and the cascade.

`deletion_of_inTime` says that nothing else can go wrong: when every deletion
commits in time, a deleted report is a draft, and once a report has left draft
neither it nor, by the cascade, anything that belongs to it is deleted.
-/

namespace ExpenseSaas

open ReadCommitted Sql

/-- Report `k` is there, and no draft any more. -/
def LeftDraft (k : UUID) (d : Database) : Prop :=
  ∃ r, d.reports.find k = some r ∧ r.status ≠ .draft

/-- Report `k` itself is not deleted. -/
def Spared (k : UUID) (d d' : Database) : Prop :=
  ∀ r, d.reports.find k = some r → r.deletedAt = none →
    ∃ r', d'.reports.find k = some r' ∧ r'.deletedAt = none

/-- No item and no attachment of report `k` is deleted. -/
def SparedChildren (k : UUID) (d d' : Database) : Prop :=
  (∀ x ∈ d.items.rows, x.reportID = k → x.deletedAt = none → x ∈ d'.items.rows) ∧
    ∀ x ∈ d.attachments.rows, x.reportID = k → x.deletedAt = none → x ∈ d'.attachments.rows

/-- The call deletes a report. -/
def Call.Deletes (call : Call) : Prop := ∃ actor j, call = .tenant actor (.deleteReport j)

/-- What a commit of `call` must not do to reports that have left draft. -/
def SparesDecided (call : Call) (d d' : Database) : Prop :=
  ∀ k, LeftDraft k d → Spared k d d' ∧ (call.Deletes → SparedChildren k d d')

/-- Deleted reports are drafts, and nothing that has left draft is deleted. -/
structure OnlyDraftsDisappear (w : World server) : Prop where
  deleted : ∀ r ∈ w.db.reports.rows, r.deletedAt.isSome → r.status = .draft
  spared : ∀ e ∈ w.log, ∃ s, w.sessions[e.sess]? = some s ∧ SparesDecided s.call e.pre e.post
  /-- Having left draft is for good. -/
  later : w.log.Pairwise fun e f => ∀ k, LeftDraft k e.post → LeftDraft k f.pre

section

variable {C : World server → Action server → Prop} {d₀ : Database} {w : World server} {i : Nat}
  {s : Session server} {k : UUID}

theorem version_of_deletes {e : Endpoint} (h : e.deletes = some k) : e.version = none := by
  cases e <;> first
    | rfl
    | cases h

/-- A report whose deletion was checked in time is a draft. -/
theorem draft_of_deleteChecked (h : Reachable C (.init d₀) w) (hs : w.sessions[i]? = some s)
    (hc : DeleteChecked s.call s.trace k) (htime : ∀ e ∈ w.log, ¬ LeavesDraft k e.pre e.post) :
    ∃ r, w.db.reports.find k = some r ∧ r.status = .draft := by
  obtain ⟨_, _, _, _, hd⟩ := hc
  exact draft_of_inTime h hs hd htime

/-- What a session has made of a committed report. -/
theorem report_of_view (h : Reachable C (.init d₀) w) (hs : w.sessions[i]? = some s)
    {r' : ExpenseReport} (hr : (s.view w.db).reports.find k = some r') :
    ReportRel True s.call s.trace (w.db.get (.report k)) r' := by
  have hrel := frozen_relates (U := True) (Or.inl trivial) h hs (RowId.report k)
  rwa [show server.get (s.view w.db) (.report k) = some (.report r') from get_report.mpr hr] at hrel

/-- A commit in time deletes drafts only. -/
theorem deleted_of_inTime (hdelete : ∀ w a, C w a → InTime DeleteChecked w a)
    (h₀ : ∀ r ∈ d₀.reports.rows, r.deletedAt.isSome → r.status = .draft)
    (h : Reachable C (.init d₀) w) :
    ∀ d ∈ history d₀ w.log, ∀ r ∈ d.reports.rows, r.deletedAt.isSome → r.status = .draft := by
  refine h.history_rule
    (I := fun d : Database => ∀ r ∈ d.reports.rows, r.deletedAt.isSome → r.status = .draft) h₀ ?_
  intro w i o s s' d' hw hc hs hm ih r hr hdel
  rw [hm.publishes] at hr
  have hrel := report_of_view hw hs (Table.find_of_mem hr)
  rcases hrel.deletion hdel with hchecked | ⟨x, hx, hxdel⟩
  · obtain ⟨x, hx, hxs⟩ := draft_of_deleteChecked hw hs hchecked
      (hdelete _ _ hc s _ hs hm.committing hchecked)
    obtain ⟨actor, e, hcall, he, _⟩ := hchecked
    rw [hrel.status actor e hcall (version_of_deletes he) x (get_report.mpr hx)]
    exact hxs
  · obtain ⟨v, hv, hk⟩ := kept_respected.relates hw hs (RowId.report r.reportID) _ hx
    cases (show server.get (s.view w.db) (.report r.reportID) = some (.report r) from
      get_report.mpr (Table.find_of_mem hr)).symm.trans hv
    rw [(hk.deleted hxdel).2]
    exact ih x (Table.mem_of_find (get_report.mp hx)) hxdel

/-- A commit in time leaves a report that has left draft where it is. -/
theorem spared_of_inTime (hdelete : ∀ w a, C w a → InTime DeleteChecked w a)
    (h : Reachable C (.init d₀) w) :
    ∀ e ∈ w.log, ∃ s, w.sessions[e.sess]? = some s ∧ SparesDecided s.call e.pre e.post := by
  refine h.entry_rule (fun {w i o s s' d'} hw hc hs hm => ?_)
  rintro k ⟨r, hr, hleft⟩
  rw [hm.publishes]
  have hnot : ¬ DeleteChecked s.call s.trace k := by
    intro hchecked
    obtain ⟨x, hx, hxs⟩ := draft_of_deleteChecked hw hs hchecked
      (hdelete _ _ hc s k hs hm.committing hchecked)
    cases hr.symm.trans hx
    exact hleft hxs
  refine ⟨fun x hx hlive => ?_, ?_⟩
  · obtain ⟨v, hv, hk⟩ := kept_respected.relates hw hs (RowId.report k) _ (get_report.mpr hx)
    cases v with
    | report r' =>
      refine ⟨r', get_report.mp hv, ?_⟩
      have hid : r'.reportID = k := Table.key_of_find (get_report.mp hv)
      by_contra hdel
      rcases (report_of_view hw hs (get_report.mp hv)).deletion
        (Option.isSome_iff_ne_none.mpr hdel) with hchecked | ⟨y, hy, hydel⟩
      · exact hnot (hid ▸ hchecked)
      · cases (get_report.mpr hx).symm.trans hy
        rw [hlive] at hydel
        cases hydel
    | _ => exact hk.elim
  · rintro ⟨actor, j, hcall⟩
    -- All a deletion is permitted by is its own check.
    have hp : ¬ Permitted s.trace k s.call := by
      intro hp
      refine hleft (draft_of_permitted hw hs hm.committing hp ?_ (fun hd => absurd hd hnot) hr)
      rintro ⟨_, _, hcall', he, _⟩
      cases hcall.symm.trans hcall'
      cases he
    exact ⟨fun x hx hk _ => (items_of_not_permitted hw hs hp hk).mpr hx,
      fun x hx hk _ => (attachments_of_not_permitted hw hs hp hk).mpr hx⟩

/--
**Only drafts disappear, as long as no deletion comes too late.** In every run
in which no deletion that has seen a report as a draft commits after the report
has left draft, a deleted report is a draft, and a report that has left draft
keeps itself, and from the cascade its items and attachments.
-/
theorem deletion_of_inTime (hdelete : ∀ w a, C w a → InTime DeleteChecked w a)
    (h₀ : ∀ r ∈ d₀.reports.rows, r.deletedAt.isSome → r.status = .draft)
    (h : Reachable C (.init d₀) w) : OnlyDraftsDisappear w where
  deleted := deleted_of_inTime hdelete h₀ h w.db h.db_mem_history
  spared := spared_of_inTime hdelete h
  later := by
    refine (kept_respected.pairwise h).imp ?_
    rintro e f hkept k ⟨r, hr, hst⟩
    obtain ⟨v, hv, hk⟩ := hkept (RowId.report k) _ (get_report.mpr hr)
    cases v with
    | report x => exact ⟨x, get_report.mp hv, hk.left hst⟩
    | _ => exact hk.elim

end

/-! ## Two runs -/

theorem Sample.none_deleted :
    ∀ r ∈ Sample.database.reports.rows, r.deletedAt.isSome → r.status = .draft := by
  intro r hr _
  rw [List.mem_singleton.mp hr]
  rfl

namespace Sample

/-- The owner deletes the draft, and then tries to submit it. -/
def deleteThenSubmit : List (Action server) :=
  [.start (.tenant owner (.deleteReport 1))] ++ turns 0 13 100 ++
    [.start (.tenant owner (.submitReport 1 5))] ++ turns 1 4 200

/-- The owner starts to delete the draft, submits it in another window, and then it is deleted. -/
def lateDeletion : List (Action server) :=
  [.start (.tenant owner (.deleteReport 1))] ++ turns 0 3 100 ++
    [.start (.tenant owner (.submitReport 1 5))] ++ turns 1 15 200 ++ turns 0 10 300

end Sample

/-- Here the deletion is in time. -/
theorem deletion_of_deleteThenSubmit : ∃ w : World server,
    Reachable (fun w a => beforeAnyCommit w a = true) (.init Sample.database) w ∧
      w.db.reports.rows.all (fun r => r.deletedAt.isSome) = true ∧ OnlyDraftsDisappear w := by
  have hrun : ((World.init Sample.database : World server).run beforeAnyCommit
      Sample.deleteThenSubmit).any
      (fun w => w.db.reports.rows.all fun r => r.deletedAt.isSome) = true := by
    decide +kernel
  obtain ⟨w, hw, hdel⟩ := exists_of_run (fun _ _ h => h) hrun
  exact ⟨w, hw, hdel, deletion_of_inTime (fun _ _ h => (inTime_of_beforeAnyCommit h).2)
    Sample.none_deleted hw⟩

/-- **A report is deleted that was submitted already.** -/
theorem submitted_deleted : ∃ w : World server,
    Reachable (DistinctNow Sample.database) (.init Sample.database) w ∧
      ¬ OnlyDraftsDisappear w := by
  have hrun : ((World.init Sample.database : World server).run (uniqueTimes Sample.database)
      Sample.lateDeletion).any
      (fun w => w.db.reports.rows.any fun r => r.deletedAt.isSome && r.status ≠ .draft) = true := by
    decide +kernel
  obtain ⟨w, hw, hdel⟩ := exists_of_run distinctNow_of_uniqueTimes hrun
  refine ⟨w, hw, fun honly => ?_⟩
  simp only [List.any_eq_true, Bool.and_eq_true, decide_eq_true_eq] at hdel
  obtain ⟨r, hr, hsome, hst⟩ := hdel
  exact hst (honly.deleted r hr hsome)

end ExpenseSaas
