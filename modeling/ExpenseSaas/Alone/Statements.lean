import ExpenseSaas.Alone.Eval
import ExpenseSaas.Postgres.Writes

/-!
# Statements alone

What each statement answers and leaves when no other transaction is open. A
statement that names its row by the primary key finds one row or none (`first_of_key`),
and an update of it is that row, written or refused (`alone_update`).
-/

namespace ExpenseSaas

open ReadCommitted Sql

/-! ## Numbers -/

/-- A number fits an `INTEGER`. -/
def FitsInt4 (i : Int) : Prop := -2 ^ 31 ≤ i ∧ i < 2 ^ 31

theorem int4_eq_ok {i j : Int} : int4 i = .ok j ↔ FitsInt4 i ∧ j = i := by
  unfold int4 FitsInt4
  split
  · rename_i h
    constructor
    · intro heq
      cases heq
      exact ⟨h, rfl⟩
    · rintro ⟨_, rfl⟩
      rfl
  · rename_i h
    constructor
    · intro heq
      cases heq
    · exact fun hfits => absurd hfits.1 h

theorem count_eq_ok {R : Type} {rows : List R} {j : Int} :
    Sql.count rows = .ok j ↔ rows.length < 2 ^ 31 ∧ j = rows.length := by
  unfold Sql.count
  rw [int4_eq_ok]
  unfold FitsInt4
  refine and_congr_left fun _ => ?_
  omega

/-! ## One row -/

namespace Relation

variable {R : Type} {T : Relation R} {p cond : R → Bool} {k : RowId} {d : Database} {r : R}

/-- A condition that determines the key selects the row with that key, if it has the rest. -/
theorem filter_of_key (hkey : ∀ r, cond r = true → T.id r = k) (hnodup : (T.rows d).Nodup) :
    T.filter cond d = (T.first cond d).toList := by
  have hone : ∀ x ∈ T.filter cond d, ∀ y ∈ T.filter cond d, x = y := by
    intro x hx y hy
    obtain ⟨hxmem, hxc⟩ := List.mem_filter.mp hx
    obtain ⟨hymem, hyc⟩ := List.mem_filter.mp hy
    have hget := (T.mem_rows d x).mp hxmem
    rw [hkey x hxc, ← hkey y hyc, (T.mem_rows d y).mp hymem] at hget
    exact ((T.unwrap_wrap _ _).mpr (Option.some.inj hget)).symm.trans
      ((T.unwrap_wrap _ _).mpr rfl) |> Option.some.inj
  have hnd : (T.filter cond d).Nodup := hnodup.filter _
  unfold first
  cases hl : T.filter cond d with
  | nil => rfl
  | cons x xs =>
    rw [hl] at hone hnd
    cases xs with
    | nil => rfl
    | cons y ys =>
      have hxy : x = y := hone x (by simp) y (by simp)
      rw [List.nodup_cons] at hnd
      exact absurd (hxy ▸ List.mem_cons_self) hnd.1

/-- The row a condition that determines the key selects. -/
theorem first_of_key (hkey : ∀ r, cond r = true → T.id r = k) :
    T.first cond d = some r ↔ T.find d k = some r ∧ cond r = true := by
  constructor
  · intro h
    obtain ⟨hmem, hc⟩ := T.mem_of_first h
    rw [T.find_eq_some, ← hkey r hc]
    exact ⟨(T.mem_rows d r).mp hmem, hc⟩
  · rintro ⟨hfind, hc⟩
    have hmem : r ∈ T.filter cond d := by
      refine List.mem_filter.mpr ⟨(T.mem_rows d r).mpr ?_, hc⟩
      rw [hkey r hc]
      exact T.find_eq_some.mp hfind
    cases hx : T.first cond d with
    | none =>
      rw [List.head?_eq_none_iff.mp hx] at hmem
      cases hmem
    | some x =>
      obtain ⟨hxmem, hxc⟩ := T.mem_of_first hx
      have hget := (T.mem_rows d x).mp hxmem
      rw [hkey x hxc, T.find_eq_some.mp hfind, Option.some.injEq] at hget
      have hr := (T.unwrap_wrap _ x).mpr hget
      rw [(T.unwrap_wrap _ r).mpr rfl] at hr
      exact hr.symm

/-- What an update of one row answers and leaves. -/
def updated {β : Type} (T : Relation R) (cond : R → Bool)
    (set : Database → Database → Oracle → R → Except SqlError R) (resp : List R → β) (clock : Oracle)
    (d : Database) : Except SqlError (β × Database) :=
  match T.first cond d with
  | none => .ok (resp [], d)
  | some r => (set d d clock r).map fun r' => (resp [r'], d.put (T.wrap r'))

theorem updated_eq_ok {β : Type} {set : Database → Database → Oracle → R → Except SqlError R}
    {resp : List R → β} {clock : Oracle} {b : β} {d' : Database} :
    T.updated cond set resp clock d = .ok (b, d') ↔
      (T.first cond d = none ∧ b = resp [] ∧ d' = d) ∨
      ∃ r r', T.first cond d = some r ∧ set d d clock r = .ok r' ∧ b = resp [r'] ∧ d' = d.put (T.wrap r') := by
  unfold updated
  cases hr : T.first cond d with
  | none =>
    constructor
    · intro h
      cases h
      exact .inl ⟨rfl, rfl, rfl⟩
    · rintro (⟨_, rfl, rfl⟩ | ⟨r, r', h, _⟩)
      · rfl
      · cases h
  | some r =>
    dsimp only
    cases hset : set d d clock r with
    | error e =>
      constructor
      · intro h
        cases h
      · rintro (⟨h, _⟩ | ⟨r₁, r', h, hr', _⟩)
        · cases h
        · cases h
          cases hset.symm.trans hr'
    | ok r' =>
      constructor
      · intro h
        cases h
        exact .inr ⟨r, r', rfl, hset, rfl, rfl⟩
      · rintro (⟨h, _⟩ | ⟨r₁, r₁', h, hr', rfl, rfl⟩)
        · cases h
        · cases h
          cases hset.symm.trans hr'
          rfl

/-- **An update of one row**, named by its key. -/
theorem visit_one {set : Database → Database → Oracle → R → Except SqlError R} {clock : Oracle}
    (hkey : ∀ r, cond r = true → T.id r = k) (hnodup : (T.rows d).Nodup) :
    server.visit (fun key cur => T.apply cond set d cur clock key) ((T.filter cond d).map T.id) d [] =
      T.updated cond set (List.map T.wrap) clock d := by
  rw [filter_of_key hkey hnodup]
  unfold updated
  cases hr : T.first cond d with
  | none => rfl
  | some r =>
    obtain ⟨hfind, hc⟩ := (first_of_key hkey).mp hr
    have happly : T.apply cond set d d clock (T.id r) = some ((set d d clock r).map T.wrap) := by
      unfold apply
      rw [hkey r hc, hfind]
      exact if_pos hc
    show server.visit _ [T.id r] d [] = _
    rw [Engine.visit]
    dsimp only
    rw [happly]
    cases set d d clock r with
    | ok r' => rfl
    | error e => rfl

/-- What an insert answers and leaves. -/
def inserted {β : Type} (T : Relation R) (row : Except SqlError R) (resp : R → β) (d : Database) :
    Except SqlError (β × Database) := do
  let r ← row
  if d.taken (T.wrap r) then .error .uniqueViolation else .ok (resp r, d.put (T.wrap r))

theorem inserted_eq_ok {β : Type} {row : Except SqlError R} {resp : R → β} {b : β} {d' : Database} :
    T.inserted row resp d = .ok (b, d') ↔
      ∃ r, row = .ok r ∧ d.taken (T.wrap r) = false ∧ b = resp r ∧ d' = d.put (T.wrap r) := by
  unfold inserted
  rw [Except.bind_eq_ok]
  refine exists_congr fun r => and_congr_right fun _ => ?_
  cases d.taken (T.wrap r) with
  | true =>
    constructor
    · intro h
      cases h
    · rintro ⟨h, _⟩
      cases h
  | false =>
    constructor
    · intro h
      cases h
      exact ⟨rfl, rfl, rfl⟩
    · rintro ⟨_, rfl, rfl⟩
      rfl

end Relation

/-- A statement that inserts a row. -/
theorem alone_insert {R : Type} [Inhabited R] (T : Relation R)
    (row : Database → Oracle → Oracle → Except SqlError R) {q : Stmt} (resp : R → q.Result) {d : Database}
    {clock o : Oracle} (hq : q.sem = .insert (fun d clock o => (row d clock o).map T.wrap) fun v => resp ((T.unwrap v).getD default)) :
    server.alone q clock o d = T.inserted (row d clock o) resp d := by
  have hsem : server.sem q =
      .insert (fun d clock o => (row d clock o).map T.wrap) fun v => resp ((T.unwrap v).getD default) := hq
  unfold Engine.alone
  rw [hsem]
  unfold Relation.inserted
  dsimp only
  cases row d clock o with
  | error e => rfl
  | ok r =>
    have hunwrap : T.unwrap (T.wrap r) = some r := (T.unwrap_wrap _ _).mpr rfl
    simp only [Except.map, hunwrap, Option.getD_some]
    rfl

theorem nodup_reports {d : Database} : (reportRows.rows d).Nodup := d.reports.nodup.of_map

theorem nodup_items {d : Database} : (itemRows.rows d).Nodup := d.items.nodup.of_map

/-- A statement that updates one row, named by its key. -/
theorem alone_update {R : Type} {T : Relation R} {cond : R → Bool} {k : RowId} {d : Database}
    {set : Database → Database → Oracle → R → Except SqlError R} (clock : Oracle) {o : Oracle}
    {q : Stmt} {resp : List R → q.Result} (hq : q.sem = T.update cond set resp)
    (hkey : ∀ r, cond r = true → T.id r = k) (hnodup : (T.rows d).Nodup) :
    server.alone q clock o d = T.updated cond set resp clock d := by
  have hsem : server.sem q = T.update cond set resp := hq
  unfold Engine.alone
  rw [hsem]
  unfold Relation.update
  dsimp only
  rw [Relation.visit_one hkey hnodup]
  unfold Relation.updated
  cases hr : T.first cond d with
  | none => rfl
  | some r =>
    dsimp only
    cases set d d clock r with
    | error e => rfl
    | ok r' =>
      have hunwrap : T.unwrap (T.wrap r') = some r' := (T.unwrap_wrap _ _).mpr rfl
      simp [Except.map, hunwrap]

/-- A list in order is the list. -/
theorem perm_orderBy {R : Type} {keys : R → List Int} {rows : List R} : (orderBy keys rows).Perm rows :=
  List.perm_insertionSort _ rows

/-! ## Looking up -/

theorem calm_of_looksUp {t : UUID} {c : Command} (h : LooksUp t c) : server.Calm c := by
  cases c with
  | ext x => trivial
  | begin | commit | rollback => exact h.elim
  | sql q =>
    intro d clock o
    cases q with
    | getReportByID | getExpenseItemByID | listExpenseItemsByReportID | getAttachmentByID
    | listAttachmentsByItemID | getCategoryByID | getTenantByID | getUserByID | hasApprover =>
      exact ⟨_, rfl⟩
    | _ => exact absurd h Bool.false_ne_true

section

variable {α : Type} {env : Nat → Oracle} {db d : Database} {clock : Oracle} {n : Nat} {s' : Solo server}
  {t k i : UUID} {actor : Actor}

/-- A service that only looks things up leaves its transaction as it was. -/
theorem inside_of_looks {x : Service α} {a : α} (hx : Looks t x)
    (h : GivesAlone env x (.inside db clock d n) a s') : ∃ n', s' = .inside db clock d n' :=
  h.inside (Prog.only_mono hx fun _ => calm_of_looksUp)

/-- A row that a statement answers. -/
theorem gives_row {R : Type} {x : Service (Option R)} {context : String} {e : DomainError} {row : Option R}
    {r : R} {s s₁ : Solo server} (hx : ∀ o s', GivesAlone env x s o s' ↔ o = row ∧ s' = s₁) :
    GivesAlone env (do let row ← errorf context x; orNoRows e row) s r s' ↔ row = some r ∧ s' = s₁ := by
  refine gives_bind.trans ?_
  constructor
  · rintro ⟨o, s₂, ho, hr⟩
    obtain ⟨rfl, rfl⟩ := (hx o s₂).mp (gives_errorf.mp ho)
    exact gives_orNoRows.mp hr
  · rintro ⟨rfl, rfl⟩
    exact ⟨some r, s', gives_errorf.mpr ((hx _ _).mpr ⟨rfl, rfl⟩), gives_orNoRows.mpr ⟨rfl, rfl⟩⟩

theorem gives_getReport {r : ExpenseReport} :
    GivesAlone env (ReportRepo.getByID t k) (.inside db clock d n) r s' ↔
      reportRows.first (reportIs t k) d = some r ∧ s' = .inside db clock d (n + 1) :=
  gives_row fun _ _ => gives_read rfl

theorem gives_getItem {x : ExpenseItem} :
    GivesAlone env (ItemRepo.getByID t k i) (.inside db clock d n) x s' ↔
      itemRows.first (fun x => itemOf t k x && x.itemID = i) d = some x ∧ s' = .inside db clock d (n + 1) :=
  gives_row fun _ _ => gives_read rfl

theorem gives_getCategory {c : UUID} {x : Category} :
    GivesAlone env (CategoryRepo.getByID t c) (.inside db clock d n) x s' ↔
      categoryRows.first
        (fun x => x.categoryID = c && x.isActive && (x.tenantID = some t || x.tenantID = none)) d = some x ∧
      s' = .inside db clock d (n + 1) :=
  gives_row fun _ _ => gives_read rfl

theorem gives_listItems {l : List ExpenseItem} :
    GivesAlone env (ItemRepo.listByReportID t k) (.inside db clock d n) l s' ↔
      l = orderBy (fun i => asc i.createdAt ++ asc ((env n).rank i.itemID)) (itemRows.filter (itemOf t k) d) ∧
      s' = .inside db clock d (n + 1) :=
  gives_errorf.trans (gives_read rfl)

theorem gives_hasApprover {b : Bool} :
    GivesAlone env (MembershipRepo.hasApprover t) (.inside db clock d n) b s' ↔
      b = (membershipRows.filter (fun m => m.tenantID = t) d).any (fun m => m.role = .approver) ∧
      s' = .inside db clock d (n + 1) :=
  gives_errorf.trans (gives_read rfl)

/-- A reference to one's own rejected report. -/
theorem gives_checkReference {u : Unit} :
    GivesAlone env (ReportService.checkReference actor (some k)) (.inside db clock d n) u s' ↔
      (∃ r, reportRows.first (reportIs actor.tenantID k) d = some r ∧ r.userID = actor.userID ∧
        r.status = .rejected) ∧ s' = .inside db clock d (n + 1) := by
  unfold ReportService.checkReference
  constructor
  · intro h
    obtain ⟨r, s₁, hr, h⟩ := gives_bind.mp h
    obtain ⟨hfirst, rfl⟩ := gives_getReport.mp hr
    obtain ⟨howner, h⟩ := gives_unless.mp h
    obtain ⟨hstatus, h⟩ := gives_unless.mp h
    exact ⟨⟨r, hfirst, not_not.mp howner, not_not.mp hstatus⟩, (gives_pure.mp h).2⟩
  · rintro ⟨⟨r, hfirst, howner, hstatus⟩, rfl⟩
    refine gives_bind.mpr ⟨r, _, gives_getReport.mpr ⟨hfirst, rfl⟩, ?_⟩
    rw [if_neg (not_not.mpr howner), if_neg (not_not.mpr hstatus)]
    exact gives_pure.mpr ⟨rfl, rfl⟩

/-- A draft of the actor's own. -/
theorem gives_editableReport {r : ExpenseReport} :
    GivesAlone env (editableReport actor k) (.inside db clock d n) r s' ↔
      (reportRows.first (reportIs actor.tenantID k) d = some r ∧ r.userID = actor.userID ∧ r.status = .draft) ∧
      s' = .inside db clock d (n + 1) := by
  unfold editableReport
  constructor
  · intro h
    obtain ⟨r', s₁, hr, h⟩ := gives_bind.mp h
    obtain ⟨hfirst, rfl⟩ := gives_getReport.mp hr
    obtain ⟨u, s₂, hm, h⟩ := gives_bind.mp h
    obtain ⟨hmodify, rfl⟩ := gives_demand.mp hm
    obtain ⟨u', s₃, he, h⟩ := gives_bind.mp h
    obtain ⟨hedit, rfl⟩ := gives_demand.mp he
    obtain ⟨rfl, rfl⟩ := gives_pure.mp h
    exact ⟨⟨hfirst, owner_of_canModify hmodify, draft_of_canEdit hedit⟩, rfl⟩
  · rintro ⟨⟨hfirst, howner, hdraft⟩, rfl⟩
    have hmodify : Authorizer.canModifyReport actor r = .ok () := if_neg (not_not.mpr howner.symm)
    have hedit : r.canEdit = .ok () := if_neg (not_not.mpr hdraft)
    exact gives_bind.mpr ⟨r, _, gives_getReport.mpr ⟨hfirst, rfl⟩, gives_bind.mpr ⟨(), _,
      gives_demand.mpr ⟨hmodify, rfl⟩, gives_bind.mpr ⟨(), _, gives_demand.mpr ⟨hedit, rfl⟩,
        gives_pure.mpr ⟨rfl, rfl⟩⟩⟩⟩

end

/-! ## Writing -/

section

variable {env : Nat → Oracle} {db d : Database} {clock o : Oracle} {n : Nat} {s' : Solo server}
  {t k i : UUID}

theorem id_of_reportIs {r : ExpenseReport} (h : reportIs t k r = true) : reportRows.id r = .report k := by
  simp only [reportIs, Bool.and_eq_true, decide_eq_true_eq] at h
  exact congrArg RowId.report h.1.2

theorem find_of_reportIs {r : ExpenseReport} (h : reportRows.first (reportIs t k) d = some r) :
    d.reports.find k = some r ∧ r.tenantID = t ∧ r.reportID = k := by
  obtain ⟨hfind, hr⟩ := (Relation.first_of_key fun r => id_of_reportIs).mp h
  have hget : d.get (.report k) = some (.report r) := reportRows.find_eq_some.mp hfind
  simp only [reportIs, Bool.and_eq_true, decide_eq_true_eq] at hr
  simp only [Database.get, Option.map_eq_some_iff, Version.report.injEq, exists_eq_right] at hget
  exact ⟨hget, hr.1.1, hr.1.2⟩

/-- An update that answers the row it has written, and none if there is none to write. -/
theorem gives_updated {R : Type} {T : Relation R} {cond : R → Bool}
    {set : Database → Database → Oracle → R → Except SqlError R} {x : Service (Option R)} {context : String}
    {e : DomainError} {r' : R}
    (hx : ∀ o s', GivesAlone env x (.inside db clock d n) o s' ↔
      ∃ d', T.updated cond set List.head? clock d = .ok (o, d') ∧ s' = .inside db clock d' (n + 1)) :
    GivesAlone env (do let row ← errorf context x; orNoRows e row) (.inside db clock d n) r' s' ↔
      ∃ old, T.first cond d = some old ∧ set d d clock old = .ok r' ∧
        s' = .inside db clock (d.put (T.wrap r')) (n + 1) := by
  refine gives_bind.trans ?_
  constructor
  · rintro ⟨row, s₁, hrow, h⟩
    obtain ⟨rfl, rfl⟩ := gives_orNoRows.mp h
    obtain ⟨d', hd, rfl⟩ := (hx _ _).mp (gives_errorf.mp hrow)
    rcases Relation.updated_eq_ok.mp hd with ⟨_, hnone, _⟩ | ⟨old, r, hold, hset, hsome, rfl⟩
    · cases hnone
    · cases hsome
      exact ⟨old, hold, hset, rfl⟩
  · rintro ⟨old, hold, hset, rfl⟩
    exact ⟨some r', _, gives_errorf.mpr ((hx _ _).mpr
      ⟨_, Relation.updated_eq_ok.mpr (.inr ⟨old, r', hold, hset, rfl, rfl⟩), rfl⟩), gives_orNoRows.mpr ⟨rfl, rfl⟩⟩

/-- The update of a status writes the row that was read, if it is still the same version. -/
theorem gives_updateStatus {r r' : ExpenseReport} :
    GivesAlone env (ReportRepo.updateStatus r) (.inside db clock d n) r' s' ↔
      ∃ old, reportRows.first (fun x => reportIs r.tenantID r.reportID x && x.updatedAt = r.updatedAt) d = some old ∧
        setReportStatus (statusParams r) d d clock old = .ok r' ∧
        s' = .inside db clock (d.put (.report r')) (n + 1) :=
  gives_updated (T := reportRows) fun _ _ => gives_sql.trans <| exists_congr fun _ =>
    and_congr (Eq.congr (alone_update clock (q := .updateReportStatus (statusParams r)) rfl
      (fun _ hx => id_of_reportIs ((Bool.and_eq_true _ _).mp hx).1) nodup_reports) rfl) Iff.rfl

theorem id_of_itemIs {x : ExpenseItem} (h : (itemOf t k x && x.itemID = i) = true) : itemRows.id x = .item i :=
  congrArg RowId.item (of_decide_eq_true ((Bool.and_eq_true _ _).mp h).2)

theorem find_of_itemIs {x : ExpenseItem} (h : itemRows.first (fun x => itemOf t k x && x.itemID = i) d = some x) :
    d.items.find i = some x ∧ itemOf t k x = true := by
  obtain ⟨hfind, hx⟩ := (Relation.first_of_key fun x => id_of_itemIs).mp h
  have hget : d.get (.item i) = some (.item x) := itemRows.find_eq_some.mp hfind
  simp only [Database.get, Option.map_eq_some_iff, Version.item.injEq, exists_eq_right] at hget
  exact ⟨hget, ((Bool.and_eq_true _ _).mp hx).1⟩

/-- A new row, unless it is refused. -/
theorem gives_insert {R : Type} [Inhabited R] (T : Relation R)
    (row : Database → Oracle → Oracle → Except SqlError R) {q : Stmt} (resp : R → q.Result) {b : q.Result}
    (hq : q.sem = .insert (fun d clock o => (row d clock o).map T.wrap) fun v => resp ((T.unwrap v).getD default)) :
    GivesAlone env (sql q) (.inside db clock d n) b s' ↔
      ∃ r, row d clock (env n) = .ok r ∧ d.taken (T.wrap r) = false ∧ b = resp r ∧
        s' = .inside db clock (d.put (T.wrap r)) (n + 1) := by
  rw [gives_sql, alone_insert T row resp hq]
  constructor
  · rintro ⟨d', hd, rfl⟩
    obtain ⟨r, hr, hfree, rfl, rfl⟩ := Relation.inserted_eq_ok.mp hd
    exact ⟨r, hr, hfree, rfl, rfl⟩
  · rintro ⟨r, hr, hfree, rfl, rfl⟩
    exact ⟨_, Relation.inserted_eq_ok.mpr ⟨r, hr, hfree, rfl, rfl⟩, rfl⟩

theorem taken_report {r : ExpenseReport} : d.taken (.report r) = false ↔ d.reports.find r.reportID = none := by
  simp [Database.taken, Database.get, Version.id]

theorem taken_item {x : ExpenseItem} : d.taken (.item x) = false ↔ d.items.find x.itemID = none := by
  simp [Database.taken, Database.get, Version.id]

/-- A new report, unless its row is refused. -/
theorem gives_createReport {p : Sql.CreateReportParams} {r : ExpenseReport} :
    GivesAlone env (sql (.createReport p)) (.inside db clock d n) r s' ↔
      reportRow p d clock (env n) = .ok r ∧ d.reports.find r.reportID = none ∧
        s' = .inside db clock (d.put (.report r)) (n + 1) := by
  refine (gives_insert reportRows (reportRow p) (q := .createReport p) id rfl).trans ?_
  constructor
  · rintro ⟨r', hr, hfree, rfl, rfl⟩
    exact ⟨hr, taken_report.mp hfree, rfl⟩
  · rintro ⟨hr, hnone, rfl⟩
    exact ⟨r, hr, taken_report.mpr hnone, rfl, rfl⟩

/-- A new item, unless its row is refused. -/
theorem gives_createExpenseItem {p : CreateExpenseItemParams} {x : ExpenseItem} :
    GivesAlone env (sql (.createExpenseItem p)) (.inside db clock d n) x s' ↔
      itemRow p d clock (env n) = .ok x ∧ d.items.find x.itemID = none ∧
        s' = .inside db clock (d.put (.item x)) (n + 1) := by
  refine (gives_insert itemRows (itemRow p) (q := .createExpenseItem p) id rfl).trans ?_
  constructor
  · rintro ⟨x', hx, hfree, rfl, rfl⟩
    exact ⟨hx, taken_item.mp hfree, rfl⟩
  · rintro ⟨hx, hnone, rfl⟩
    exact ⟨x, hx, taken_item.mpr hnone, rfl, rfl⟩

/-- What becomes of a report whose total is written again. -/
theorem alone_updateTotal {r : ExpenseReport} (hr : d.reports.find k = some r) (ht : r.tenantID = t) :
    server.alone (.updateReportTotalAmount t k) clock o d =
      (setReportTotalAmount d d clock r).map fun r' => ((), d.put (.report r')) := by
  have hkey : ∀ x : ExpenseReport, (x.tenantID = t && x.reportID = k) = true → reportRows.id x = .report k := by
    intro x hx
    exact congrArg RowId.report (of_decide_eq_true ((Bool.and_eq_true _ _).mp hx).2)
  have hfirst : reportRows.first (fun x => x.tenantID = t && x.reportID = k) d = some r := by
    refine (Relation.first_of_key hkey).mpr ⟨?_, ?_⟩
    · rw [reportRows.find_eq_some]
      exact congrArg (Option.map Version.report) hr
    · simp only [ht, Table.key_of_find hr, decide_true, Bool.and_self]
  have halone := alone_update clock (q := .updateReportTotalAmount t k) (o := o) (d := d) rfl hkey
    nodup_reports
  rw [halone, Relation.updated, hfirst]
  rfl

/-- The total of a report is written again. -/
theorem gives_updateTotal {r : ExpenseReport} {u : Unit} (hr : d.reports.find k = some r) (ht : r.tenantID = t) :
    GivesAlone env (sql (.updateReportTotalAmount t k)) (.inside db clock d n) u s' ↔
      ∃ r', setReportTotalAmount d d clock r = .ok r' ∧ s' = .inside db clock (d.put (.report r')) (n + 1) := by
  rw [gives_sql, alone_updateTotal hr ht]
  cases setReportTotalAmount d d clock r with
  | ok r' =>
    constructor
    · rintro ⟨d', hd, rfl⟩
      cases hd
      exact ⟨r', rfl, rfl⟩
    · rintro ⟨r'', hr', rfl⟩
      cases hr'
      exact ⟨_, rfl, rfl⟩
  | error e =>
    constructor
    · rintro ⟨d', hd, _⟩
      cases hd
    · rintro ⟨r'', hr', _⟩
      cases hr'

/-- The update of an item writes its row, if it is still the version the client names. -/
theorem gives_updateExpenseItem {p : UpdateExpenseItemParams} {context : String} {x : ExpenseItem} :
    GivesAlone env (do let row ← errorf context (sql (.updateExpenseItem p)); orNoRows .conflict row)
        (.inside db clock d n) x s' ↔
      ∃ old, itemRows.first (fun x => itemOf p.tenantID p.reportID x && x.itemID = p.itemID &&
          x.updatedAt = p.updatedAt) d = some old ∧
        setItem p d d clock old = .ok x ∧ s' = .inside db clock (d.put (.item x)) (n + 1) :=
  gives_updated (T := itemRows) fun _ _ => gives_sql.trans <| exists_congr fun _ =>
    and_congr (Eq.congr (alone_update clock (q := .updateExpenseItem p) rfl
      (fun _ hx => id_of_itemIs ((Bool.and_eq_true _ _).mp hx).1) nodup_items) rfl) Iff.rfl

end

end ExpenseSaas
