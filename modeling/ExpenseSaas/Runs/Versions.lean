import ExpenseSaas.ReadCommitted.Stamps
import ExpenseSaas.Runs.Kept

/-!
# Versions of reports

`updated_at` is the version stamp of a report and of an item, and `now()` is the
start of the transaction. When no two transactions start at the same time, a
report that a request finds again under the stamp it read is the row it read, on
every column (`read_again`).
-/

namespace ExpenseSaas

open ReadCommitted Sql

/-- The stamp of a row version: its `updated_at`, where that is compared. -/
def Version.stamp : Version → Option Timestamp
  | .report r => some r.updatedAt
  | .item i => some i.updatedAt
  | _ => none

/-- No two transactions have the same `now()`, and none has that of a row that was there before. -/
abbrev DistinctNow (d₀ : Database) : World server → Action server → Prop :=
  BeginsFresh (E := server) Version.stamp Oracle.now d₀

section

variable {C : World server → Action server → Prop} {d₀ : Database} {w : World server} {i : Nat}
  {s : Session server} {actor : Actor} {k : UUID} {r r₀ x : ExpenseReport}

theorem ReportChange.stamp {tr : Trace} {snap cur : Database} {clock o : Oracle} {e : Endpoint}
    (h : ReportChange actor tr snap cur clock o e r) : r.updatedAt = clock.now := by
  cases h with
  | create hnone hr =>
    obtain ⟨_, _, rfl⟩ := reportRow_ok hr
    rfl
  | update hr hu hd hv hc hx hid hxv hs =>
    obtain ⟨_, _, rfl⟩ := setReport_ok hs
    rfl
  | status hver hr hv hT hc hx hid hxv hs =>
    obtain ⟨_, _, _, _, rfl⟩ := setReportStatus_ok hs
    rfl
  | delete he hd hx hid => rfl
  | total hp hx ht hk hs => rw [setReportTotalAmount_ok hs]

theorem ItemChange.stamp {tr : Trace} {snap cur : Database} {clock o : Oracle} {e : Endpoint}
    {x : ExpenseItem} (h : ItemChange actor tr snap cur clock o e x) :
    x.updatedAt = clock.now := by
  cases h with
  | create hp ht hnone hi =>
    obtain ⟨_, _, rfl⟩ := itemRow_ok hi
    rfl
  | edit hp ht hx hid hs =>
    obtain ⟨_, rfl⟩ := setItem_ok hs
    rfl
  | delete hp hx hid => rfl

theorem stamps_writes : StampsWrites (E := server) Version.stamp Oracle.now C d₀ := by
  intro w i s q t v hw hs hv x hx
  cases v with
  | report r =>
    obtain ⟨_, _, _, _, _, hc⟩ := report_change hw hs hv
    cases hx
    exact hc.stamp
  | item y =>
    obtain ⟨_, _, _, _, _, hc⟩ := item_change hw hs hv
    cases hx
    exact hc.stamp
  | _ => cases hx

/-- A report that was read is a committed version of the report under that key. -/
theorem read_report (h : Reachable C (.init d₀) w) (hs : w.sessions[i]? = some s)
    (hr : ReadReport actor s.trace k r) : r.reportID = k ∧ r.tenantID = actor.tenantID ∧
      r.deletedAt = none ∧ ∃ d ∈ history d₀ w.log, d.reports.find k = some r := by
  obtain ⟨d, hd, c, o, hread⟩ := h.read_committed hs rfl hr
  obtain ⟨hmem, hid⟩ := reportRows.mem_of_first (Except.ok.inj hread)
  simp only [reportIs, Bool.and_eq_true, decide_eq_true_eq, Option.isNone_iff_eq_none] at hid
  exact ⟨hid.1.2, hid.1.1, hid.2, d, hd, hid.1.2 ▸ Table.find_of_mem hmem⟩

/--
**A report found again under the stamp it was read with is the row that was
read**, and it is the committed one.
-/
theorem read_again (hC : ∀ w a, C w a → DistinctNow d₀ w a) (h : Reachable C (.init d₀) w)
    (hs : w.sessions[i]? = some s) {t : Txn server} (ht : s.txn = some t)
    (hr : ReadReport actor s.trace k r₀) (hx : (s.view w.db).reports.find k = some x)
    (hv : x.updatedAt = r₀.updatedAt) : x = r₀ ∧ w.db.reports.find k = some r₀ := by
  obtain ⟨_, _, _, d, hd, hfind⟩ := read_report h hs hr
  obtain ⟨hfree, heq⟩ := h.version_seen hC stamps_writes hs ht hd (k := RowId.report k)
    (v := Version.report r₀) (x := r₀.updatedAt) (get_report.mpr hfind) (get_report.mpr hx) rfl
    (congrArg some hv)
  cases heq
  have hview := Session.get_view_of_free (d := w.db) hfree
  exact ⟨rfl, get_report.mp (hview.symm.trans (get_report.mpr hx))⟩

end

end ExpenseSaas
