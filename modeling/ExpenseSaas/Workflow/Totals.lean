import Mathlib.Algebra.BigOperators.Group.List.Basic
import ExpenseSaas.Workflow.Parents

/-!
# Totals

`total_amount` of a report is the sum over its live items, recomputed by the
transaction that changes one. `Conserved` says that it is right.

A session that has changed items of a report either still owes the recomputation
(`Due`), or holds the report's row with the right total (`Balanced`), so nobody
else can have changed items of that report meanwhile. That is the whole
argument, and one step of it fails: the sum is taken in the snapshot of the
statement, and the statement may have waited for the row since. `FreshSums` is
the condition that the snapshot is not outdated by then, and `conserved` the
result. `Sample.twoItems` is a run in which it is.
-/

namespace ExpenseSaas

open ReadCommitted Sql

/-- The sum over the live items of a report. -/
def Database.itemsTotal (d : Database) (k : UUID) : Int :=
  ((d.items.rows.filter fun x => x.reportID = k && x.deletedAt.isNone).map ExpenseItem.amount).sum

/-- Every report that is not deleted has the right total. -/
def Conserved (d : Database) : Prop :=
  ∀ r ∈ d.reports.rows, r.deletedAt = none → r.totalAmount = d.itemsTotal r.reportID

/--
When a recomputation gets the row of the report, the sum in its snapshot is that
of the items it could see by now.
-/
def FreshSums (w : World server) : Action server → Prop
  | .step i _ => ∀ s t k c p rest, w.sessions[i]? = some s →
      s.prog = .exec (.sql (.updateReportTotalAmount t k)) c → s.pending = some p →
      p.todo = .report k :: rest → sumOfItems p.snap t k = sumOfItems (s.view w.db) t k
  | _ => True

section

variable {d d' : Database} {k : UUID}

/-- The sum depends on which rows there are, not on where they stand. -/
theorem itemsTotal_congr
    (h : ∀ x : ExpenseItem, x.reportID = k → (x ∈ d'.items.rows ↔ x ∈ d.items.rows)) :
    d'.itemsTotal k = d.itemsTotal k := by
  have hperm : (d'.items.rows.filter fun x => x.reportID = k && x.deletedAt.isNone).Perm
      (d.items.rows.filter fun x => x.reportID = k && x.deletedAt.isNone) := by
    refine (List.perm_ext_iff_of_nodup (d'.items.nodup.of_map.filter _)
      (d.items.nodup.of_map.filter _)).mpr fun x => ?_
    simp only [List.mem_filter, Bool.and_eq_true, decide_eq_true_eq]
    constructor
    · rintro ⟨hx, hk, hlive⟩
      exact ⟨(h x hk).mp hx, hk, hlive⟩
    · rintro ⟨hx, hk, hlive⟩
      exact ⟨(h x hk).mpr hx, hk, hlive⟩
  exact (hperm.map _).sum_eq

/-- The subquery sums over all items of the report, since they have its tenant. -/
theorem sumOfItems_eq (hb : Belongs d) {r : ExpenseReport} (hr : d.reports.find k = some r) :
    sumOfItems d r.tenantID k = d.itemsTotal k := by
  unfold sumOfItems liveItems Relation.filter Database.itemsTotal
  congr 2
  refine List.filter_congr fun x hx => ?_
  by_cases hk : x.reportID = k
  · obtain ⟨p, hp, y, rfl, ht⟩ := hb _ _ ((itemRows.mem_rows _ _).mp hx) _ rfl
    have hy : d.get (.report k) = some (.report y) := hk ▸ hp
    cases (get_report.mpr hr).symm.trans hy
    simp [hk, ht]
  · simp [hk]

/-- A report that is not there has no items. -/
theorem itemsTotal_of_none (hb : Belongs d) (hr : d.reports.find k = none) :
    d.itemsTotal k = 0 := by
  have hnil : (d.items.rows.filter fun x => x.reportID = k && x.deletedAt.isNone) = [] := by
    refine List.filter_eq_nil_iff.mpr fun x hx => ?_
    simp only [Bool.and_eq_true, decide_eq_true_eq, not_and]
    rintro rfl
    obtain ⟨p, hp, _⟩ := hb _ _ ((itemRows.mem_rows _ _).mp hx) _ rfl
    exact nomatch (get_report_none.mpr hr).symm.trans hp
  unfold Database.itemsTotal
  rw [hnil]
  rfl

end

/-! ## What a session owes -/

/-- The report is deleted. -/
def Dead (k : UUID) (d : Database) : Prop :=
  ∃ r, d.reports.find k = some r ∧ r.deletedAt.isSome

/-- The session has changed an item of report `k`. -/
def TouchesItems (s : Session server) (k : UUID) : Prop :=
  ∃ x, Version.item x ∈ s.writes ∧ x.reportID = k

/-- The session has not recomputed the total of report `k` since it changed its items. -/
def Due (s : Session server) (k : UUID) : Prop :=
  ∃ actor e, s.call = .tenant actor e ∧
    (k ∈ owes s.trace ∨ ∃ q c, s.prog = .exec (.sql q) c ∧ q.incurs = some k)

/-- The session holds report `k` with the right total, or leaves it and its items alone. -/
structure Balanced (k : UUID) (d : Database) (s : Session server) : Prop where
  held : s.Holds (.report k) → ∀ r, (s.view d).reports.find k = some r →
    r.totalAmount = (s.view d).itemsTotal k
  free : ¬ s.Holds (.report k) → ¬ TouchesItems s k

/-- The books of a session. -/
structure Settling (d : Database) (s : Session server) : Prop where
  account : ∀ k, Due s k ∨ Dead k (s.view d) ∨ Balanced k d s
  /-- A recomputation, or deletion, in progress has the row before it or behind it. -/
  pending : ∀ p q c k, s.pending = some p → s.prog = .exec (.sql q) c → q.settles = some k →
    .report k ∈ p.todo ∨ Dead k (s.view d) ∨ (s.Holds (.report k) ∧ Balanced k d s)

section

variable {d d' : Database} {k : UUID} {s s' t : Session server}

theorem balanced_of_writes_nil (h : s.writes = []) : Balanced k d s where
  held := by
    rintro ⟨v, hv, _⟩
    rw [h] at hv
    exact absurd hv List.not_mem_nil
  free := by
    rintro - ⟨x, hx, _⟩
    rw [h] at hx
    exact absurd hx List.not_mem_nil

theorem settling_of_writes_nil (h : s.writes = []) (hp : s.pending = none) : Settling d s where
  account _ := Or.inr (Or.inr (balanced_of_writes_nil h))
  pending _ _ _ _ hpe := nomatch hp.symm.trans hpe

theorem Balanced.congr (h : Balanced k d s) (hw : s'.writes = s.writes) : Balanced k d s' where
  held := by
    rintro ⟨v, hv, hk⟩
    rw [Session.view_congr hw]
    exact h.held ⟨v, hw ▸ hv, hk⟩
  free := by
    rintro hk ⟨x, hx, hxk⟩
    refine h.free ?_ ⟨x, hw ▸ hx, hxk⟩
    rintro ⟨v, hv, hvk⟩
    exact hk ⟨v, hw.symm ▸ hv, hvk⟩

/-- Nothing is written: what is due has to stay due. -/
theorem Settling.quiet_account (h : Settling d s) (hw : s'.writes = s.writes)
    (hdue : ∀ k, Due s k → Due s' k) (k : UUID) :
    Due s' k ∨ Dead k (s'.view d) ∨ Balanced k d s' := by
  rw [Session.view_congr hw]
  exact (h.account k).imp (hdue k) (Or.imp_right fun hb => hb.congr hw)

theorem Settling.answered (h : Settling d s) (hw : s'.writes = s.writes) (hp : s'.pending = none)
    (hdue : ∀ k, Due s k → Due s' k) : Settling d s' where
  account := h.quiet_account hw hdue
  pending _ _ _ _ hpe := nomatch hp.symm.trans hpe

end

/-! ## One more version -/

section

variable {d : Database} {k : UUID} {s s' : Session server} {v : Version}

/-- The version is of another report, and no item of this one. -/
structure Beside (k : UUID) (d : Database) (v : Version) : Prop where
  id : v.id ≠ .report k
  item : ∀ x, v = .item x → x.reportID ≠ k ∧
    ∀ y, d.items.find x.itemID = some y → y.reportID ≠ k

theorem Beside.find (h : Beside k d v) : (d.put v).reports.find k = d.reports.find k := by
  cases v with
  | report r => exact Table.find_put_ne fun hk => h.id (congrArg RowId.report hk)
  | _ => rfl

theorem Beside.itemsTotal (h : Beside k d v) : (d.put v).itemsTotal k = d.itemsTotal k := by
  cases v with
  | item x =>
    obtain ⟨hx, hold⟩ := h.item x rfl
    unfold Database.itemsTotal
    congr 2
    refine Table.filter_put_of_not (by simp [hx]) fun y hy => ?_
    simp [hold y hy]
  | _ => rfl

theorem Beside.dead (h : Beside k d v) (hd : Dead k d) : Dead k (d.put v) := by
  obtain ⟨r, hr, hdel⟩ := hd
  exact ⟨r, h.find.trans hr, hdel⟩

theorem Beside.holds (h : Beside k (s.view d) v) (hw : s'.writes = s.writes ++ [v]) :
    s'.Holds (.report k) ↔ s.Holds (.report k) := by
  constructor
  · rintro ⟨u, hu, hk⟩
    rw [hw, List.mem_append, List.mem_singleton] at hu
    rcases hu with hu | rfl
    · exact ⟨u, hu, hk⟩
    · exact absurd hk h.id
  · rintro ⟨u, hu, hk⟩
    exact ⟨u, hw ▸ List.mem_append_left _ hu, hk⟩

theorem Beside.balanced (h : Beside k (s.view d) v) (hw : s'.writes = s.writes ++ [v])
    (hb : Balanced k d s) : Balanced k d s' where
  held hk r hr := by
    have hview : s'.view d = (s.view d).put v := Session.view_of_wrote hw
    rw [hview] at hr ⊢
    rw [h.itemsTotal]
    exact hb.held ((h.holds hw).mp hk) r (h.find.symm.trans hr)
  free hk := by
    rintro ⟨x, hx, hxk⟩
    rw [hw, List.mem_append, List.mem_singleton] at hx
    rcases hx with hx | rfl
    · exact hb.free (fun hk' => hk ((h.holds hw).mpr hk')) ⟨x, hx, hxk⟩
    · exact (h.item x rfl).1 hxk

/-- The session holds the row, and its total is right. -/
theorem balanced_of_held {r : ExpenseReport} (hw : s'.writes = s.writes ++ [.report r])
    (ht : r.totalAmount = (s.view d).itemsTotal r.reportID) : Balanced r.reportID d s' where
  held _ x hx := by
    have hview : s'.view d = (s.view d).put (.report r) := Session.view_of_wrote hw
    rw [hview] at hx ⊢
    have hfind : ((s.view d).put (.report r)).reports.find r.reportID = some r :=
      Table.find_put_self
    cases hfind.symm.trans hx
    exact ht
  free hk := absurd ⟨_, hw ▸ List.mem_append_right _ (List.mem_singleton_self _), rfl⟩ hk

end

/-! ## What is due -/

section

variable {k : UUID} {s s' : Session server}

theorem owes_ok {tr : Trace} {q : Stmt} {r : q.Result} :
    owes (tr ++ [⟨.sql q, .ok r⟩])
      = (owes tr).filter (fun k => q.settles ≠ some k) ++ q.incurs.toList := owes_append

/-- What is due before a statement is due after it, unless the statement settles it. -/
theorem Due.ok (h : Due s k) {q : Stmt} {r : q.Result} {c : Command.Resp (.sql q) → Program Outcome}
    (hp : s.prog = .exec (.sql q) c) (hcall : s'.call = s.call)
    (htr : s'.trace = s.trace ++ [⟨.sql q, .ok r⟩]) (hq : q.settles ≠ some k) : Due s' k := by
  obtain ⟨actor, e, hc, hdue⟩ := h
  refine ⟨actor, e, hcall.trans hc, Or.inl ?_⟩
  rw [htr, owes_ok, List.mem_append]
  rcases hdue with hmem | ⟨q', c', hp', hinc⟩
  · exact Or.inl (List.mem_filter.mpr ⟨hmem, by simpa using hq⟩)
  · cases hp.symm.trans hp'
    exact Or.inr (by simp [hinc])

theorem Due.wait (h : Due s k) (hcall : s'.call = s.call) (hp : s'.prog = s.prog)
    (htr : s'.trace = s.trace) : Due s' k := by
  obtain ⟨actor, e, hc, hdue⟩ := h
  exact ⟨actor, e, hcall.trans hc, by rw [htr, hp]; exact hdue⟩

theorem Due.ext (h : Due s k) {x : Ext} {r : x.Result} {c : x.Result → Program Outcome}
    (hp : s.prog = .exec (.ext x) c) (hcall : s'.call = s.call)
    (htr : s'.trace = s.trace ++ [⟨.ext x, r⟩]) : Due s' k := by
  obtain ⟨actor, e, hc, hdue⟩ := h
  refine ⟨actor, e, hcall.trans hc, Or.inl ?_⟩
  rcases hdue with hmem | ⟨q', c', hp', _⟩
  · rw [htr, owes_append]
    exact hmem
  · cases hp.symm.trans hp'

/-- Statements that do not update change no balance, or leave it due. -/
theorem settles_of_not_update {q : Stmt} (h : ∀ targets apply resp,
    q.sem ≠ .update targets apply resp) : q.settles = none := by
  cases q <;> first
    | rfl
    | exact absurd rfl (h _ _ _)

end

/-! ## Who can change the items of a report -/

section

variable {C : World server → Action server → Prop} {d₀ : Database} {w : World server} {i : Nat}
  {s s' t : Session server} {k : UUID}

/-- The items of a report are to a session as they are committed, unless it has changed one. -/
theorem items_of_untouched (h : Reachable C (.init d₀) w) (hs : w.sessions[i]? = some s)
    (hk : ¬ TouchesItems s k) (x : ExpenseItem) (hx : x.reportID = k) :
    x ∈ (s.view w.db).items.rows ↔ x ∈ w.db.items.rows := by
  have hfree : ∀ d : Database, (d = w.db ∨ d = s.view w.db) → x ∈ d.items.rows →
      ¬ s.Holds (E := server) (RowId.item x.itemID) := by
    rintro d hd hmem hheld
    obtain ⟨v, hv, hid, hget⟩ := Session.get_view_of_holds hheld
    have hgetx : d.get (.item x.itemID) = some (.item x) := (itemRows.mem_rows _ _).mp hmem
    have hkept : (Version.item x).Kept v := by
      rcases hd with rfl | rfl
      · obtain ⟨v', hv', hk'⟩ := kept_respected.relates h hs (RowId.item x.itemID) _ hgetx
        cases (hget w.db).symm.trans hv'
        exact hk'
      · cases (hget w.db).symm.trans hgetx
        exact .refl _
    cases v with
    | item y => exact hk ⟨y, hv, hkept.reportID.trans hx⟩
    | _ => exact hkept.elim
  constructor
  · intro hmem
    have hget := Session.get_view_of_free (d := w.db) (hfree _ (Or.inr rfl) hmem)
    exact (itemRows.mem_rows _ _).mpr (hget.symm.trans ((itemRows.mem_rows _ _).mp hmem))
  · intro hmem
    have hget := Session.get_view_of_free (d := w.db) (hfree _ (Or.inl rfl) hmem)
    exact (itemRows.mem_rows _ _).mpr (hget.trans ((itemRows.mem_rows _ _).mp hmem))

theorem itemsTotal_of_untouched (h : Reachable C (.init d₀) w) (hs : w.sessions[i]? = some s)
    (hk : ¬ TouchesItems s k) : (s.view w.db).itemsTotal k = w.db.itemsTotal k :=
  itemsTotal_congr (items_of_untouched h hs hk)

/-- A session that holds the books of a live report in balance sees the right total. -/
theorem total_of_balanced (h : Reachable C (.init d₀) w) (hs : w.sessions[i]? = some s)
    (hI : Conserved w.db) (hb : Balanced k w.db s) {r : ExpenseReport}
    (hr : (s.view w.db).reports.find k = some r) (hlive : r.deletedAt = none) :
    r.totalAmount = (s.view w.db).itemsTotal k := by
  by_cases hheld : s.Holds (.report k)
  · exact hb.held hheld r hr
  · rw [itemsTotal_of_untouched h hs (hb.free hheld)]
    have hget := Session.get_view_of_free (d := w.db) hheld
    have hcom : w.db.reports.find k = some r :=
      get_report.mp (hget.symm.trans (get_report.mpr hr))
    obtain rfl : r.reportID = k := Table.key_of_find hcom
    exact hI r (Table.mem_of_find hcom) hlive

/-- A session about to commit has nothing due. -/
theorem not_due_of_committing (h : Reachable C (.init d₀) w) (hs : w.sessions[i]? = some s)
    (hc : s.Committing) : ¬ Due s k := by
  rintro ⟨actor, e, hcall, hdue⟩
  obtain ⟨⟨c, hp⟩, _⟩ := hc
  rcases hdue with hmem | ⟨q, c', hp', _⟩
  · have hask := asked h hs hp
    rw [hcall] at hask
    have howes : owes s.trace = [] := hask
    rw [howes] at hmem
    exact absurd hmem List.not_mem_nil
  · exact nomatch hp.symm.trans hp'

/-! ## What others commit -/

/-- After another session's commit, a session sees later versions of what it saw. -/
theorem later_of_publish (h : Reachable C (.init d₀) w) (hs : w.sessions[i]? = some s)
    {t : Session server} {key : RowId} {v : Version} (hv : (t.view w.db).get key = some v) :
    ∃ v', (t.view (s.view w.db)).get key = some v' ∧ v.Kept v' := by
  have hpub : (t.view (s.view w.db)).get key = if t.Holds key then (t.view w.db).get key
      else (s.view w.db).get key := Session.get_view_publish (E := server)
  rw [hpub]
  by_cases hk : t.Holds key
  · exact ⟨v, by rw [if_pos hk]; exact hv, .refl v⟩
  · rw [if_neg hk]
    exact kept_respected.relates h hs key v ((Session.get_view_of_free hk).symm.trans hv)

theorem Dead.publish (hd : Dead k (t.view w.db)) (h : Reachable C (.init d₀) w)
    (hs : w.sessions[i]? = some s) : Dead k (t.view (s.view w.db)) := by
  obtain ⟨r, hr, hdel⟩ := hd
  obtain ⟨v, hv, hk⟩ := later_of_publish h hs (t := t) (get_report.mpr hr)
  cases v with
  | report r' => exact ⟨r', get_report.mp hv, (hk.deleted hdel).1⟩
  | _ => exact hk.elim

/-- What another session commits leaves a balanced report in balance, unless it is deleted. -/
theorem Balanced.publish {j : Nat} (hb : Balanced k w.db t) (h : Reachable C (.init d₀) w)
    (hij : i ≠ j) (hs : w.sessions[i]? = some s) (ht : w.sessions[j]? = some t)
    (hc : s.Committing) (hset : Settling w.db s) :
    Dead k (t.view (s.view w.db)) ∨ Balanced k (s.view w.db) t := by
  by_cases hheld : t.Holds (.report k)
  · have hap := World.locks_disjoint h i j s t hij hs ht
    have hpub : ∀ key, (t.view (s.view w.db)).get key = if t.Holds key then (t.view w.db).get key
        else (s.view w.db).get key := fun key => Session.get_view_publish (E := server)
    have hnot : ¬ s.Holds (.report k) := fun hsk => hap _ hsk hheld
    rcases hset.account k with hdue | hdead | hbal
    · exact absurd hdue (not_due_of_committing h hs hc)
    · -- The committing session sees the report deleted, and so it is committed.
      obtain ⟨r, hr, hdel⟩ := hdead
      have hcom : w.db.get (.report k) = some (.report r) :=
        (Session.get_view_of_free hnot).symm.trans (get_report.mpr hr)
      obtain ⟨v, hv, hk⟩ := kept_respected.relates h ht (RowId.report k) _ hcom
      cases v with
      | report r' =>
        exact Or.inl (Dead.publish ⟨r', get_report.mp hv, (hk.deleted hdel).1⟩ h hs)
      | _ => exact hk.elim
    · have htotal : (t.view (s.view w.db)).itemsTotal k = (t.view w.db).itemsTotal k := by
        refine itemsTotal_congr fun x hx => ?_
        rw [show x ∈ (t.view (s.view w.db)).items.rows ↔ _ from itemRows.mem_rows _ x,
          show x ∈ (t.view w.db).items.rows ↔ _ from itemRows.mem_rows _ x, hpub]
        by_cases hxk : t.Holds (itemRows.id x)
        · rw [if_pos hxk]
        · rw [if_neg hxk, show (t.view w.db).get (itemRows.id x) = _ from
            Session.get_view_of_free hxk]
          exact ((itemRows.mem_rows _ x).symm.trans
            (items_of_untouched h hs (hbal.free hnot) x hx)).trans (itemRows.mem_rows _ x)
      refine Or.inr ⟨fun _ r hr => ?_, fun hfree => absurd hheld hfree⟩
      rw [htotal]
      refine hb.held hheld r (get_report.mp ?_)
      have hget := (hpub (.report k)).symm.trans (get_report.mpr hr)
      rwa [if_pos hheld] at hget
  · exact Or.inr ⟨fun hk => absurd hk hheld, hb.free⟩

theorem Settling.publish {j : Nat} (hp : Settling w.db t) (h : Reachable C (.init d₀) w)
    (hij : i ≠ j) (hs : w.sessions[i]? = some s) (ht : w.sessions[j]? = some t)
    (hc : s.Committing) (hset : Settling w.db s) : Settling (s.view w.db) t where
  account k := by
    rcases hp.account k with hdue | hdead | hbal
    · exact Or.inl hdue
    · exact Or.inr (Or.inl (hdead.publish h hs))
    · exact Or.inr (hbal.publish h hij hs ht hc hset)
  pending p q c k hpe hpr hq := by
    rcases hp.pending p q c k hpe hpr hq with hmem | hdead | ⟨hheld, hbal⟩
    · exact Or.inl hmem
    · exact Or.inr (Or.inl (hdead.publish h hs))
    · exact Or.inr ((hbal.publish h hij hs ht hc hset).imp_right fun hb => ⟨hheld, hb⟩)

/-! ## What a session does itself -/

/-- A statement that settles a report deletes it, or leaves it with the right total. -/
theorem settled_of_write (hb : Belongs (s.view w.db)) {q : Stmt} {snap : Database}
    {clock o : Oracle} {r : ExpenseReport} (hw : ReportWrite snap (s.view w.db) clock o q r)
    (hsum : ∀ u k, q = .updateReportTotalAmount u k →
      sumOfItems snap u k = sumOfItems (s.view w.db) u k)
    (hwr : s'.writes = s.writes ++ [.report r]) (hq : q.settles = some k) :
    Dead k (s'.view w.db) ∨ (s'.Holds (.report k) ∧ Balanced k w.db s') := by
  have hview : s'.view w.db = (s.view w.db).put (.report r) := Session.view_of_wrote hwr
  cases hw with
  | @softDelete u j x hx hid =>
    cases hq
    simp only [reportIs, Bool.and_eq_true, decide_eq_true_eq] at hid
    have hfind : (s'.view w.db).reports.find x.reportID =
        some { x with deletedAt := some clock.now, updatedAt := clock.now } := by
      rw [hview]
      exact Table.find_put_self
    exact Or.inl ⟨_, hid.1.2 ▸ hfind, rfl⟩
  | @total u j x r hx ht hk hs' =>
    cases hq
    have hr := setReportTotalAmount_ok hs'
    have hid : r.reportID = k := by
      rw [hr]
      exact hk
    refine Or.inr ⟨⟨.report r, hwr ▸ List.mem_append_right _ (List.mem_singleton_self _),
      congrArg RowId.report hid⟩, hid ▸ balanced_of_held hwr ?_⟩
    rw [hr]
    show sumOfItems snap x.tenantID x.reportID = _
    rw [ht, hk, hsum u k rfl, ← ht, ← hk]
    exact sumOfItems_eq hb (Table.find_of_mem hx)
  | _ => cases hq

/-- What is written to a report deletes it, or leaves its total as right as it was. -/
theorem balanced_of_write (h : Reachable C (.init d₀) w) (hs : w.sessions[i]? = some s)
    (hI : Conserved w.db) (hb : Belongs (s.view w.db)) (hset : Settling w.db s) {q : Stmt}
    {snap : Database} {clock o : Oracle} {r : ExpenseReport}
    (hw : ReportWrite snap (s.view w.db) clock o q r)
    (hfresh : server.inserts q = true → (s.view w.db).get (.report r.reportID) = none)
    (hsum : ∀ u k, q = .updateReportTotalAmount u k →
      sumOfItems snap u k = sumOfItems (s.view w.db) u k)
    (hwr : s'.writes = s.writes ++ [.report r]) :
    Due s r.reportID ∨ Dead r.reportID (s'.view w.db) ∨ Balanced r.reportID w.db s' := by
  -- A live report that is written over, with its total.
  have hover : ∀ x ∈ (s.view w.db).reports.rows, x.deletedAt = none → r.reportID = x.reportID →
      r.totalAmount = x.totalAmount →
      Due s r.reportID ∨ Dead r.reportID (s'.view w.db) ∨ Balanced r.reportID w.db s' := by
    intro x hx hlive hid htot
    have hfind : (s.view w.db).reports.find r.reportID = some x := hid ▸ Table.find_of_mem hx
    rcases hset.account r.reportID with hdue | ⟨y, hy, hdel⟩ | hbal
    · exact Or.inl hdue
    · cases hfind.symm.trans hy
      rw [hlive] at hdel
      cases hdel
    · exact Or.inr (Or.inr (balanced_of_held hwr
        (htot.trans (total_of_balanced h hs hI hbal hfind hlive))))
  have hsettled := fun hq => (settled_of_write (k := r.reportID) hb hw hsum hwr hq).imp_right And.right
  cases hw with
  | create hr =>
    have hnone := get_report_none.mp (hfresh rfl)
    refine Or.inr (Or.inr (balanced_of_held hwr ?_))
    rw [itemsTotal_of_none hb hnone]
    obtain ⟨_, _, rfl⟩ := reportRow_ok hr
    rfl
  | @edit p x r hx hid hv hs' =>
    obtain ⟨_, _, rfl⟩ := setReport_ok hs'
    simp only [reportIs, Bool.and_eq_true, Option.isNone_iff_eq_none] at hid
    exact hover x hx hid.2 rfl rfl
  | @status p x r hx hid hv hs' =>
    obtain ⟨_, _, _, _, rfl⟩ := setReportStatus_ok hs'
    simp only [reportIs, Bool.and_eq_true, Option.isNone_iff_eq_none] at hid
    exact hover x hx hid.2 rfl rfl
  | softDelete hx hid =>
    simp only [reportIs, Bool.and_eq_true, decide_eq_true_eq] at hid
    exact Or.inr (hsettled (congrArg some hid.1.2.symm))
  | total hx ht hk hs' =>
    refine Or.inr (hsettled ?_)
    rw [setReportTotalAmount_ok hs']
    exact congrArg some hk.symm

/-- A statement that writes an item leaves the total of its report to be recomputed. -/
theorem incurs_of_item_write {q : Stmt} {snap cur : Database} {clock o : Oracle} {x : ExpenseItem}
    (h : ItemWrite snap cur clock o q x) : q.incurs = some x.reportID := by
  cases h with
  | create hi =>
    obtain ⟨_, _, rfl⟩ := itemRow_ok hi
    rfl
  | edit hx hid hs =>
    obtain ⟨_, rfl⟩ := setItem_ok hs
    simp only [itemOf, Bool.and_eq_true, decide_eq_true_eq] at hid
    exact congrArg some hid.1.2.symm
  | softDelete hx hid hj =>
    simp only [itemOf, Bool.and_eq_true, decide_eq_true_eq] at hid
    exact congrArg some hid.1.2.symm
  | softDeleteAll hx hid =>
    simp only [itemOf, Bool.and_eq_true, decide_eq_true_eq] at hid
    exact congrArg some hid.1.2.symm

/-- A version that is not of report `k`, nor of an item of it, is beside it. -/
theorem beside_of_ne {d : Database} {v : Version} (hkept : kept.le v.id (d.get v.id) (some v))
    (hr : ∀ r, v = .report r → r.reportID ≠ k) (hx : ∀ x, v = .item x → x.reportID ≠ k) :
    Beside k d v where
  id := by
    cases v with
    | report r => exact fun hid => hr r rfl (RowId.report.inj hid)
    | _ => exact fun hid => nomatch hid
  item := by
    rintro x rfl
    refine ⟨hx x rfl, fun y hy => ?_⟩
    obtain ⟨v', hv', hk⟩ := hkept _ (get_item.mpr hy)
    cases hv'
    exact fun hyk => hx x rfl (hk.reportID.trans hyk)

/-- The books of a session that has written one more version. -/
theorem account_of_wrote (h : Reachable C (.init d₀) w) (hs : w.sessions[i]? = some s)
    (hI : Conserved w.db) (hb : Belongs (s.view w.db)) (hset : Settling w.db s) {q : Stmt}
    {t : Txn server} {v : Version} (hv : Writing w.db (w.others i) s q t v)
    (hkept : kept.le v.id ((s.view w.db).get v.id) (some v))
    (hwr : s'.writes = s.writes ++ [v]) {snap : Database} {o : Oracle}
    (hw : q.sem.Writes snap (s.view w.db) t.clock o v)
    (hsum : ∀ u k, q = .updateReportTotalAmount u k →
      sumOfItems snap u k = sumOfItems (s.view w.db) u k)
    (hdue : ∀ k, Due s k → Due s' k)
    (hincurs : ∀ actor e k, s.call = .tenant actor e → q.incurs = some k → Due s' k) (k : UUID) :
    Due s' k ∨ Dead k (s'.view w.db) ∨ Balanced k w.db s' := by
  by_cases hbeside : Beside k (s.view w.db) v
  · refine (hset.account k).imp (hdue k) (Or.imp (fun hd => ?_) fun hbal => hbeside.balanced hwr hbal)
    rw [show s'.view w.db = (s.view w.db).put v from Session.view_of_wrote hwr]
    exact hbeside.dead hd
  · have hof : (∃ r, v = .report r ∧ r.reportID = k) ∨ ∃ x, v = .item x ∧ x.reportID = k := by
      by_contra hnot
      rw [not_or] at hnot
      exact hbeside (beside_of_ne hkept (fun r hr hk => hnot.1 ⟨r, hr, hk⟩)
        fun x hx hk => hnot.2 ⟨x, hx, hk⟩)
    rcases hof with ⟨r, rfl, rfl⟩ | ⟨x, rfl, rfl⟩
    · exact (balanced_of_write h hs hI hb hset (report_writes hw) hv.fresh hsum hwr).imp_left (hdue _)
    · obtain ⟨actor, e, _, _, hcall, _⟩ := item_change h hs hv
      exact Or.inl (hincurs actor e _ hcall (incurs_of_item_write (item_writes hw)))

/-- A report that is to be settled is there, in the tenant the statement names. -/
theorem report_of_settles (h : Reachable C (.init d₀) w) (hs : w.sessions[i]? = some s)
    {t : Txn server} (ht : s.txn = some t) (hf : t.failed = false) {q : Stmt}
    {c : Command.Resp (.sql q) → Program Outcome} (hp : s.prog = .exec (.sql q) c)
    (hq : q.settles = some k) : ∃ r u, (s.view w.db).reports.find k = some r ∧ r.tenantID = u ∧
      (q = .updateReportTotalAmount u k ∨ q = .softDeleteReport u k) := by
  have hask := asked h hs hp
  have hform : ∃ u, q = .updateReportTotalAmount u k ∨ q = .softDeleteReport u k := by
    cases q <;> cases hq
    case softDeleteReport.refl u => exact ⟨u, Or.inr rfl⟩
    case updateReportTotalAmount.refl u => exact ⟨u, Or.inl rfl⟩
  generalize hcall : s.call = call at hask
  cases call with
  | tenant actor e =>
    have hask : q.readsIn actor.tenantID = true ∨ (MayWrite actor s.trace e q ∧ Prepared s.trace q) :=
      hask
    obtain ⟨u, hqu⟩ := hform
    have hm : MayWrite actor s.trace e q := by
      rcases hask with hr | hm
      · rcases hqu with rfl | rfl <;> exact absurd hr Bool.false_ne_true
      · exact hm.1
    have hper : u = actor.tenantID ∧ Permit actor s.trace k e := by
      rcases hqu with rfl | rfl
      · exact hm.editing agree_self
      · exact hm.deleting agree_self
    obtain ⟨r, hr, htr⟩ := report_of_permit h hs ht hf hcall hper.2
    exact ⟨r, u, hr, htr.trans hper.1.symm, hqu⟩
  | _ =>
    obtain ⟨u, rfl | rfl⟩ := hform <;> rcases hask with hr | hm
    all_goals first
      | exact absurd hr Bool.false_ne_true
      | cases hm

/-- An update that settles a report visits it, unless it is deleted. -/
theorem targets_of_settles (h : Reachable C (.init d₀) w) (hs : w.sessions[i]? = some s)
    {t : Txn server} (ht : s.txn = some t) (hf : t.failed = false) {q : Stmt}
    {c : Command.Resp (.sql q) → Program Outcome} (hp : s.prog = .exec (.sql q) c)
    (hq : q.settles = some k) {targets : Database → List RowId}
    {apply : Database → Database → Oracle → RowId → Option (Except SqlError Version)}
    {resp : List Version → q.Result} (hsem : q.sem = .update targets apply resp) :
    Dead k (s.view w.db) ∨ (.report k ∈ targets (s.view w.db) ∧
      ∀ snap clock, apply snap (s.view w.db) clock (.report k) ≠ none) := by
  obtain ⟨r, u, hr, htr, hqu⟩ := report_of_settles h hs ht hf hp hq
  have hid : r.reportID = k := Table.key_of_find hr
  have hmem := Table.mem_of_find hr
  have hfind : reportRows.find (s.view w.db) (.report k) = some r :=
    (reportRows.find_eq_some).mpr (get_report.mpr hr)
  rcases hqu with rfl | rfl
  · cases hsem
    refine Or.inr ⟨List.mem_map.mpr ⟨r, List.mem_filter.mpr ⟨hmem, ?_⟩, congrArg _ hid⟩, ?_⟩
    · simp [htr, hid]
    · intro snap clock
      simp [Relation.apply, hfind, htr, hid]
  · cases hsem
    cases hdel : r.deletedAt with
    | some x => exact Or.inl ⟨r, hr, by simp [hdel]⟩
    | none =>
      have hcond : reportIs u k r = true := by simp [reportIs, htr, hid, hdel]
      refine Or.inr ⟨List.mem_map.mpr ⟨r, List.mem_filter.mpr ⟨hmem, hcond⟩, congrArg _ hid⟩, ?_⟩
      intro snap clock
      simp [Relation.apply, hfind, hcond]

section

variable {o : Oracle} {q : Stmt} {c : Command.Resp (.sql q) → Program Outcome} {t : Txn server}

/-- A row that is inserted is accounted for. -/
theorem Settling.insert {row : Database → Oracle → Oracle → Except SqlError Version}
    {resp : Version → q.Result} {v : Version} (hset : Settling w.db s)
    (h : Reachable C (.init d₀) w) (hI : Conserved w.db) (hb : Belongs (s.view w.db))
    (hC : C w (.step i o)) (hs : w.sessions[i]? = some s) (hp : s.prog = .exec (.sql q) c)
    (hq : q.sem = .insert row resp) (hr : row (s.view w.db) t.clock o = .ok v)
    (ht : s.txn = some t) (hv : Writing w.db (w.others i) s q t v) :
    Settling w.db ((s.wrote v).answered (.sql q) (.ok (resp v)) c) := by
  have hnone := settles_of_not_update fun _ _ _ hu => nomatch hq.symm.trans hu
  have hw : q.sem.Writes w.db (s.view w.db) t.clock o v := by
    rw [hq, Sem.writes_insert]
    exact hr
  refine ⟨account_of_wrote h hs hI hb hset hv (kept_respected h hC hs hv)
    (Session.writes_wrote ht) hw ?_ ?_ ?_, fun _ _ _ _ hpe => nomatch hpe⟩
  · rintro u k rfl
    cases hnone
  · intro k hdue
    exact hdue.ok hp rfl rfl (by simp [hnone])
  · intro actor e k hcall hinc
    refine ⟨actor, e, hcall, Or.inl ?_⟩
    show k ∈ owes (s.trace ++ [⟨.sql q, .ok (resp v)⟩])
    rw [owes_ok, hinc]
    simp

variable {targets : Database → List RowId}
  {apply : Database → Database → Oracle → RowId → Option (Except SqlError Version)}
  {resp : List Version → q.Result} {p : Pending server} {key : RowId} {rest : List RowId}

/-- An update that begins has the report before it. -/
theorem Settling.snapshot (hset : Settling w.db s) (h : Reachable C (.init d₀) w)
    (hs : w.sessions[i]? = some s) (hp : s.prog = .exec (.sql q) c) (ht : s.txn = some t)
    (hf : t.failed = false) (hq : q.sem = .update targets apply resp) :
    Settling w.db { s with pending := some ⟨s.view w.db, targets (s.view w.db), []⟩ } := by
  refine ⟨hset.quiet_account rfl fun k hdue => hdue.wait rfl rfl rfl, ?_⟩
  intro p q' c' k hpe' hp' hk
  cases hpe'
  cases hp.symm.trans hp'
  rcases targets_of_settles h hs ht hf hp hk hq with hdead | ⟨hmem, _⟩
  · exact Or.inr (Or.inl hdead)
  · exact Or.inl hmem

/-- It passes the report over only when it is deleted. -/
theorem Settling.skip (hset : Settling w.db s) (h : Reachable C (.init d₀) w)
    (hs : w.sessions[i]? = some s) (hp : s.prog = .exec (.sql q) c) (ht : s.txn = some t)
    (hf : t.failed = false) (hq : q.sem = .update targets apply resp) (hpe : s.pending = some p)
    (hto : p.todo = key :: rest) (ha : apply p.snap (s.view w.db) t.clock key = none) :
    Settling w.db { s with pending := some { p with todo := rest } } := by
  refine ⟨hset.quiet_account rfl fun k hdue => hdue.wait rfl rfl rfl, ?_⟩
  intro p' q' c' k hpe' hp' hk
  cases hpe'
  cases hp.symm.trans hp'
  rcases hset.pending p q c k hpe hp hk with hmem | hdead | ⟨hheld, hbal⟩
  · rw [hto] at hmem
    rcases List.mem_cons.mp hmem with rfl | hmem
    · rcases targets_of_settles h hs ht hf hp hk hq with hdead | ⟨_, happly⟩
      · exact Or.inr (Or.inl hdead)
      · exact absurd ha (happly _ _)
    · exact Or.inl hmem
  · exact Or.inr (Or.inl hdead)
  · exact Or.inr (Or.inr ⟨hheld, hbal.congr rfl⟩)

/-- A recomputation adds up the items it could see by now. -/
theorem sumOfItems_of_writing {v : Version} (hfresh : FreshSums w (.step i o))
    (hs : w.sessions[i]? = some s) (hp : s.prog = .exec (.sql q) c) (hpe : s.pending = some p)
    (hto : p.todo = key :: rest) (hid : v.id = key)
    (hw : q.sem.Writes p.snap (s.view w.db) t.clock o v) :
    ∀ u k, q = .updateReportTotalAmount u k →
      sumOfItems p.snap u k = sumOfItems (s.view w.db) u k := by
  rintro u k rfl
  obtain ⟨x, y, hx, hc, hs', rfl⟩ := Relation.writes_update hw rfl
  simp only [Bool.and_eq_true, decide_eq_true_eq] at hc
  refine hfresh s u k c p rest hs hp hpe (hto.trans (congrArg (· :: rest) ?_))
  rw [← hid, ← hc.2, setReportTotalAmount_ok hs']
  rfl

/-- The row it writes is the report, which is settled then, or one beside it. -/
theorem Settling.write {v : Version} (hset : Settling w.db s) (h : Reachable C (.init d₀) w)
    (hfresh : FreshSums w (.step i o)) (hI : Conserved w.db) (hb : Belongs (s.view w.db))
    (hC : C w (.step i o)) (hs : w.sessions[i]? = some s) (hp : s.prog = .exec (.sql q) c)
    (ht : s.txn = some t) (hpe : s.pending = some p) (hto : p.todo = key :: rest)
    (hv : Writing w.db (w.others i) s q t v) (hid : v.id = key)
    (hw : q.sem.Writes p.snap (s.view w.db) t.clock o v) :
    Settling w.db { s.wrote v with pending := some { p with todo := rest, done := p.done ++ [v] } } := by
  have hwr : ({ s.wrote v with pending := some { p with todo := rest, done := p.done ++ [v] } } :
      Session server).writes = s.writes ++ [v] := Session.writes_wrote ht
  have hkept := kept_respected h hC hs hv
  have hsum := sumOfItems_of_writing hfresh hs hp hpe hto hid hw
  refine ⟨account_of_wrote h hs hI hb hset hv hkept hwr hw hsum
    (fun k hdue => hdue.wait rfl rfl rfl)
    (fun actor e k hcall hinc => ⟨actor, e, hcall, Or.inr ⟨q, c, hp, hinc⟩⟩), ?_⟩
  intro p' q' c' k hpe' hp' hk
  cases hpe'
  cases hp.symm.trans hp'
  by_cases hkey : v.id = .report k
  · cases v with
    | report r => exact Or.inr (settled_of_write hb (report_writes hw) hsum hwr hk)
    | _ => cases hkey
  · have hbeside : Beside k (s.view w.db) v := by
      refine beside_of_ne hkept (fun r hr hrk => hkey ?_) (fun x hx _ => ?_)
      · rw [hr, ← hrk]
        rfl
      · subst hx
        have hinc := incurs_of_item_write (item_writes hw)
        cases q <;> cases hk <;> cases hinc
    rcases hset.pending p q c k hpe hp hk with hmem | hdead | ⟨hheld, hbal⟩
    · rw [hto] at hmem
      rcases List.mem_cons.mp hmem with rfl | hmem
      · exact absurd hid hkey
      · exact Or.inl hmem
    · refine Or.inr (Or.inl ?_)
      show Dead k (Session.view _ w.db)
      rw [Session.view_of_wrote (E := server) hwr]
      exact hbeside.dead hdead
    · exact Or.inr (Or.inr ⟨(hbeside.holds hwr).mpr hheld, hbeside.balanced hwr hbal⟩)

/-- When it is through, the report is behind it. -/
theorem Settling.finish (hset : Settling w.db s) (hp : s.prog = .exec (.sql q) c)
    (hpe : s.pending = some p) (hto : p.todo = []) :
    Settling w.db (s.answered (.sql q) (.ok (resp p.done)) c) := by
  refine ⟨fun k => ?_, fun _ _ _ _ hpe => nomatch hpe⟩
  by_cases hk : q.settles = some k
  · rcases hset.pending p q c k hpe hp hk with hmem | hdead | ⟨_, hbal⟩
    · rw [hto] at hmem
      exact absurd hmem List.not_mem_nil
    · exact Or.inr (Or.inl hdead)
    · exact Or.inr (Or.inr (hbal.congr rfl))
  · refine (hset.account k).imp (fun hdue => hdue.ok hp rfl rfl hk) (Or.imp_right fun hbal => ?_)
    exact hbal.congr rfl

end

/-- **A session keeps its books.** -/
theorem Settling.move {o : Oracle} {d' : Option Database} (hset : Settling w.db s)
    (h : Reachable C (.init d₀) w) (hfresh : FreshSums w (.step i o)) (hI : Conserved w.db)
    (hb : Belongs (s.view w.db)) (hC : C w (.step i o)) (hs : w.sessions[i]? = some s)
    (hm : Move w.db (w.others i) o s s' d') : Settling (d'.getD w.db) s' := by
  cases hm with
  | begin hp ht => exact settling_of_writes_nil rfl rfl
  | commit hp ht hf => exact settling_of_writes_nil rfl rfl
  | abandon hp ht hf => exact settling_of_writes_nil rfl rfl
  | rollback hp => exact settling_of_writes_nil rfl rfl
  | ext hp => exact hset.answered rfl rfl fun k hdue => hdue.ext hp rfl rfl
  | barred hp ht hf =>
    have hnil : s.writes = [] := h.undoneOk hs _ ht hf
    exact settling_of_writes_nil hnil rfl
  | query hp ht hf hq hr =>
    refine hset.answered rfl rfl fun k hdue => hdue.ok hp rfl rfl ?_
    have hnone := settles_of_not_update fun _ _ _ hu => nomatch hq.symm.trans hu
    rw [hnone]
    exact nofun
  | refused hp ht hf hr => exact settling_of_writes_nil Session.writes_undone rfl
  | insert hp ht hf hq hr hu hcl =>
    exact hset.insert h hI hb hC hs hp hq hr ht (Writing.of_insert hp ht hf hq hr hu hcl)
  | snapshot hp ht hf hq hpe => exact hset.snapshot h hs hp ht hf hq
  | skip hp ht hf hq hpe hto hl ha => exact hset.skip h hs hp ht hf hq hpe hto ha
  | @write q c t targets apply resp p key rest v hp ht hf hq hpe hto hl ha =>
    have hw : q.sem.Writes p.snap (s.view w.db) t.clock o v := by
      rw [show q.sem = _ from hq, Sem.writes_update]
      exact ⟨key, ha⟩
    exact hset.write h hfresh hI hb hC hs hp ht hpe hto (Writing.of_update hp ht hf hq hl ha)
      (server.apply_lock _ _ _ _ hq _ _ _ _ _ ha) hw
  | finish hp ht hf hq hpe hto => exact hset.finish hp hpe hto

/--
**Totals are conserved, as long as no recomputation adds up an outdated sum.**
In every run in which a recomputation that gets the row of the report has in its
snapshot the sum it could see by then, every committed state has right totals.
-/
theorem conserved_of_freshSums (hfresh : ∀ w a, C w a → FreshSums w a) (hb : Belongs d₀)
    (h₀ : Conserved d₀) (h : Reachable C (.init d₀) w) :
    Conserved w.db := by
  refine (h.joint_rule (I := Conserved) (P := fun d _ _ s => Settling d s) h₀ ?_ ?_ ?_ ?_ ?_).1
  · intro w c _ _ _
    exact settling_of_writes_nil rfl rfl
  · intro w i o s s' d' hw _ hI hall hs hm r hr hlive
    rw [hm.publishes] at hr ⊢
    rcases (hall i s hs).account r.reportID with hdue | ⟨x, hx, hdel⟩ | hbal
    · exact absurd hdue (not_due_of_committing hw hs hm.committing)
    · cases (Table.find_of_mem hr).symm.trans hx
      rw [hlive] at hdel
      cases hdel
    · exact total_of_balanced hw hs hI hbal (Table.find_of_mem hr) hlive
  · intro w i o s s' d' hw hc hI hall hs hm
    exact (hall i s hs).move hw (hfresh _ _ hc) hI ((belongs_view hb hw).2 i s hs) hc hs hm
  · intro w i s s' _ _ _ _ hbr
    exact settling_of_writes_nil hbr.writes hbr.pending
  · intro w i j o s s' t d' hw _ _ hall hij hs ht hm
    rw [hm.publishes]
    exact (hall j t ht).publish hw hij hs ht hm.committing (hall i s hs)

end

/-! ## Two runs -/

/-- No step is one of a recomputation with an outdated sum. -/
def freshSums (w : World server) : Action server → Bool
  | .step i _ => (w.sessions[i]?).all fun s => match s.prog, s.pending with
      | .exec (.sql (.updateReportTotalAmount t k)) _, some p =>
          sumOfItems p.snap t k = sumOfItems (s.view w.db) t k
      | _, _ => true
  | _ => true

theorem freshSums_sound {w : World server} {a : Action server} (h : freshSums w a = true) :
    FreshSums w a := by
  cases a with
  | step i o =>
    intro s t k c p rest hs hp hpe _
    simpa [freshSums, hs, hp, hpe] using h
  | _ => trivial

theorem Sample.conserved : Conserved Sample.database := by
  intro r hr _
  rw [List.mem_singleton.mp hr]
  rfl

namespace Sample

/--
The owner adds two items, and both insertions are made before either total is
recomputed. The second recomputation begins when the first is committed.
-/
def takingTurns : List (Action server) :=
  [.start (.tenant owner (.createItem 1 newItem)), .start (.tenant owner (.createItem 1 newItem))] ++
    turns 0 5 100 ++ turns 1 5 200 ++ turns 0 6 300 ++ turns 1 6 400

/--
The owner adds two items at a time. The second insertion recomputes the total in
a snapshot without the first, and then waits until the first is committed.
-/
def twoItems : List (Action server) :=
  [.start (.tenant owner (.createItem 1 newItem)), .start (.tenant owner (.createItem 1 newItem))] ++
    turns 0 5 100 ++ turns 1 6 200 ++ turns 0 6 300 ++ turns 1 5 400

end Sample

/-- Here the sums are fresh, though the transactions overlap. -/
theorem conserved_of_takingTurns : ∃ w : World server,
    Reachable (fun w a => freshSums w a = true) (.init Sample.database) w ∧
      w.db.reports.rows.all (fun r => r.totalAmount = 114) = true ∧ Conserved w.db := by
  have hrun : ((World.init Sample.database : World server).run freshSums Sample.takingTurns).any
      (fun w => w.db.reports.rows.all fun r => r.totalAmount = 114) = true := by
    decide +kernel
  obtain ⟨w, hw, htotal⟩ := exists_of_run (fun _ _ h => h) hrun
  exact ⟨w, hw, htotal, conserved_of_freshSums (fun _ _ h => freshSums_sound h) Sample.belongs
    Sample.conserved hw⟩

/-- **A total is off by an item that was added at the same time.** -/
theorem not_conserved_of_twoItems : ∃ w : World server,
    Reachable (DistinctNow Sample.database) (.init Sample.database) w ∧ ¬ Conserved w.db := by
  have hrun : ((World.init Sample.database : World server).run (uniqueTimes Sample.database)
      Sample.twoItems).any (fun w => w.db.reports.rows.any fun r =>
        r.deletedAt.isNone && r.totalAmount ≠ w.db.itemsTotal r.reportID) = true := by
    decide +kernel
  obtain ⟨w, hw, htotal⟩ := exists_of_run distinctNow_of_uniqueTimes hrun
  refine ⟨w, hw, fun hcons => ?_⟩
  simp only [List.any_eq_true, Bool.and_eq_true, decide_eq_true_eq,
    Option.isNone_iff_eq_none] at htotal
  obtain ⟨r, hr, hlive, hne⟩ := htotal
  exact hne (hcons r hr hlive)

end ExpenseSaas
