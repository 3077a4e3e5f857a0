import ExpenseSaas.Contract.LockOrder
import ExpenseSaas.ReadCommitted.Waits
import ExpenseSaas.Workflow.Checks

/-!
# Deadlocks

Transactions wait for each other's rows, and PostgreSQL ends a cycle of such
waits by failing one of them, which its client sees as a 500.

Two orders of locking are at work. An item is written before the total of its
report, whoever writes it; `DeleteItem` writes the attachments before that, and
`DeleteReport` between the items and the report. So two deletions that meet in one
report can wait for each other (`deadlocked_of_twoDeletions`), and so can two
statements that revoke all tokens of one user. `deadlockFree_of_oneSweep` says that
nothing else can: there is no deadlock where no two of these are under way at once.
-/

namespace ExpenseSaas

open ReadCommitted Sql

/-! ## Where a statement writes -/

inductive TableName where
  | tenants
  | users
  | memberships
  | categories
  | reports
  | items
  | attachments
  | refreshTokens
  | passwordResetTokens
  deriving DecidableEq

/-- The table a row is in. -/
def RowId.table : RowId → TableName
  | .tenant _ => .tenants
  | .user _ => .users
  | .membership _ => .memberships
  | .category _ => .categories
  | .report _ => .reports
  | .item _ => .items
  | .attachment _ => .attachments
  | .refreshToken _ => .refreshTokens
  | .passwordResetToken _ => .passwordResetTokens

/-- The table a statement writes to. -/
def Sql.Stmt.table : Stmt → Option TableName
  | .createReport _ => some .reports
  | .updateReport _ => some .reports
  | .updateReportStatus _ => some .reports
  | .softDeleteReport _ _ => some .reports
  | .updateReportTotalAmount _ _ => some .reports
  | .createExpenseItem _ => some .items
  | .updateExpenseItem _ => some .items
  | .softDeleteExpenseItem _ _ _ => some .items
  | .softDeleteExpenseItemsByReportID _ _ => some .items
  | .createAttachment _ => some .attachments
  | .softDeleteAttachment _ _ _ _ => some .attachments
  | .softDeleteAttachmentsByItemID _ _ _ => some .attachments
  | .softDeleteAttachmentsByReportID _ _ => some .attachments
  | .createTenant _ => some .tenants
  | .createUser _ _ _ => some .users
  | .updateUserPassword _ _ => some .users
  | .createMembership _ _ _ => some .memberships
  | .createRefreshToken _ _ _ _ => some .refreshTokens
  | .revokeRefreshToken _ => some .refreshTokens
  | .revokeAllByUserID _ => some .refreshTokens
  | .createPasswordResetToken _ _ _ => some .passwordResetTokens
  | .markPasswordResetTokenUsed _ => some .passwordResetTokens
  | _ => none

/-- The one row an update is for. -/
def Sql.Stmt.row : Stmt → Option RowId
  | .updateReport p => some (.report p.reportID)
  | .updateReportStatus p => some (.report p.reportID)
  | .softDeleteReport _ k => some (.report k)
  | .updateReportTotalAmount _ k => some (.report k)
  | .updateExpenseItem p => some (.item p.itemID)
  | .softDeleteExpenseItem _ _ i => some (.item i)
  | .softDeleteAttachment _ _ _ a => some (.attachment a)
  | .updateUserPassword u _ => some (.user u)
  | .revokeRefreshToken jti => some (.refreshToken jti)
  | .markPasswordResetTokenUsed k => some (.passwordResetToken k)
  | _ => none

/-- Whose rows a sweep goes through: a report's, or a user's tokens. -/
def Sql.Stmt.group : Stmt → Option RowId
  | .softDeleteExpenseItem _ k _ => some (.report k)
  | .softDeleteExpenseItemsByReportID _ k => some (.report k)
  | .softDeleteAttachmentsByItemID _ k _ => some (.report k)
  | .softDeleteAttachmentsByReportID _ k => some (.report k)
  | .revokeAllByUserID u => some (.user u)
  | _ => none

/-- Whose row it is. -/
def Version.group : Version → Option RowId
  | .item x => some (.report x.reportID)
  | .attachment a => some (.report a.reportID)
  | .refreshToken x => some (.user x.userID)
  | _ => none

/-- How far in the order of locking a statement is. -/
def Sql.Stmt.level : Stmt → Nat
  | .softDeleteExpenseItem _ _ _ => 1
  | .softDeleteExpenseItemsByReportID _ _ => 1
  | .softDeleteAttachmentsByItemID _ _ _ => 1
  | .softDeleteAttachmentsByReportID _ _ => 1
  | .createUser _ _ _ => 1
  | .updateReportTotalAmount _ _ => 2
  | .softDeleteReport _ _ => 2
  | .createMembership _ _ _ => 2
  | .markPasswordResetTokenUsed _ => 2
  | .createRefreshToken _ _ _ _ => 3
  | .revokeAllByUserID _ => 4
  | _ => 0

section

variable {q : Stmt} {u v : Version} {key x : RowId} {snap : Database}

theorem level_le (q : Stmt) : q.level ≤ 4 := by
  cases q <;> simp [Stmt.level]

theorem group_of_kept (h : u.Kept v) : v.group = u.group := by
  cases u <;> cases v
  case item.item i i' => exact congrArg (fun k => some (RowId.report k)) h.reportID
  case attachment.attachment a a' => exact congrArg (fun k => some (RowId.report k)) h.reportID
  case refreshToken.refreshToken y y' => exact congrArg (fun k => some (RowId.user k)) h.userID
  all_goals first
    | rfl
    | exact h.elim

theorem table_of_canWrite (h : server.CanWrite q v) : q.table = some v.id.table := by
  obtain ⟨snap, cur, clock, o, hw⟩ := h
  cases v with
  | report r => cases report_writes hw <;> rfl
  | item i => cases item_writes hw <;> rfl
  | attachment a => cases attachment_writes hw <;> rfl
  | user y => cases user_writes hw <;> rfl
  | membership m => rw [membership_writes hw]; rfl
  | refreshToken y => cases refreshToken_writes hw <;> rfl
  | passwordResetToken y => cases resetToken_writes hw <;> rfl
  | tenant y =>
    obtain ⟨n, rfl⟩ := tenant_writes hw
    rfl
  | category c => exact absurd hw not_category_writes

/-- A sweep writes the rows of its group only. -/
theorem group_of_canWrite (h : server.CanWrite q v) (hx : q.group = some x) : v.group = some x := by
  obtain ⟨snap, cur, clock, o, hw⟩ := h
  cases q <;> cases hx
  case softDeleteExpenseItem t k j =>
    obtain ⟨r, r', _, hc, hs, rfl⟩ := Relation.writes_update hw rfl
    cases hs
    simp only [itemOf, Bool.and_eq_true, decide_eq_true_eq] at hc
    simp [itemRows, Version.group, hc]
  case softDeleteExpenseItemsByReportID t k =>
    obtain ⟨r, r', _, hc, hs, rfl⟩ := Relation.writes_update hw rfl
    cases hs
    simp only [itemOf, Bool.and_eq_true, decide_eq_true_eq] at hc
    simp [itemRows, Version.group, hc]
  case softDeleteAttachmentsByItemID t k j =>
    obtain ⟨r, r', _, hc, hs, rfl⟩ := Relation.writes_update hw rfl
    cases hs
    simp only [attachmentOf, Bool.and_eq_true, decide_eq_true_eq] at hc
    simp [attachmentRows, Version.group, hc]
  case softDeleteAttachmentsByReportID t k =>
    obtain ⟨r, r', _, hc, hs, rfl⟩ := Relation.writes_update hw rfl
    cases hs
    simp only [attachmentOf, Bool.and_eq_true, decide_eq_true_eq] at hc
    simp [attachmentRows, Version.group, hc]
  case revokeAllByUserID u =>
    obtain ⟨r, r', _, hc, hs, rfl⟩ := Relation.writes_update hw rfl
    cases hs
    simp only [Bool.and_eq_true, decide_eq_true_eq] at hc
    simp [refreshTokenRows, Version.group, hc]

/-- A row an update has chosen. -/
theorem exists_of_target {targets : Database → List RowId}
    {apply : Database → Database → Oracle → RowId → Option (Except SqlError Version)}
    {resp : List Version → q.Result} (hq : server.sem q = .update targets apply resp)
    (hkey : key ∈ targets snap) : q.table = some key.table ∧ (∀ k, q.row = some k → key = k) ∧
      ∃ v, snap.get key = some v ∧ ∀ x, q.group = some x → v.group = some x := by
  have hnone : ∀ {v : Version}, q.group = none → ∀ x, q.group = some x → v.group = some x := by
    intro v hg x hx
    rw [hg] at hx
    cases hx
  cases q
  -- The updates of one row.
  case updateReport p | updateReportStatus p | softDeleteReport t k | updateReportTotalAmount t k =>
    obtain ⟨r, hc, rfl, hr⟩ := Relation.exists_of_targets hq rfl hkey
    simp only [reportIs, Bool.and_eq_true, decide_eq_true_eq] at hc
    exact ⟨rfl, by simp [Stmt.row, reportRows, hc], _, hr, hnone rfl⟩
  case updateExpenseItem p =>
    obtain ⟨r, hc, rfl, hr⟩ := Relation.exists_of_targets hq rfl hkey
    simp only [Bool.and_eq_true, decide_eq_true_eq] at hc
    exact ⟨rfl, by simp [Stmt.row, itemRows, hc], _, hr, hnone rfl⟩
  case softDeleteAttachment t k j a =>
    obtain ⟨r, hc, rfl, hr⟩ := Relation.exists_of_targets hq rfl hkey
    simp only [Bool.and_eq_true, decide_eq_true_eq] at hc
    exact ⟨rfl, by simp [Stmt.row, attachmentRows, hc], _, hr, hnone rfl⟩
  case updateUserPassword u h | revokeRefreshToken jti | markPasswordResetTokenUsed k =>
    obtain ⟨r, hc, rfl, hr⟩ := Relation.exists_of_targets hq rfl hkey
    simp only [decide_eq_true_eq] at hc
    exact ⟨rfl, by simp [Stmt.row, userRows, refreshTokenRows, passwordResetTokenRows, hc], _, hr, hnone rfl⟩
  -- The sweeps.
  case softDeleteExpenseItem t k j =>
    obtain ⟨r, hc, rfl, hr⟩ := Relation.exists_of_targets hq rfl hkey
    simp only [itemOf, Bool.and_eq_true, decide_eq_true_eq] at hc
    exact ⟨rfl, by simp [Stmt.row, itemRows, hc], _, hr, by simp [Stmt.group, itemRows, Version.group, hc]⟩
  case softDeleteExpenseItemsByReportID t k =>
    obtain ⟨r, hc, rfl, hr⟩ := Relation.exists_of_targets hq rfl hkey
    simp only [itemOf, Bool.and_eq_true, decide_eq_true_eq] at hc
    exact ⟨rfl, by simp [Stmt.row], _, hr, by simp [Stmt.group, itemRows, Version.group, hc]⟩
  case softDeleteAttachmentsByItemID t k j =>
    obtain ⟨r, hc, rfl, hr⟩ := Relation.exists_of_targets hq rfl hkey
    simp only [attachmentOf, Bool.and_eq_true, decide_eq_true_eq] at hc
    exact ⟨rfl, by simp [Stmt.row], _, hr, by simp [Stmt.group, attachmentRows, Version.group, hc]⟩
  case softDeleteAttachmentsByReportID t k =>
    obtain ⟨r, hc, rfl, hr⟩ := Relation.exists_of_targets hq rfl hkey
    simp only [attachmentOf, Bool.and_eq_true, decide_eq_true_eq] at hc
    exact ⟨rfl, by simp [Stmt.row], _, hr, by simp [Stmt.group, attachmentRows, Version.group, hc]⟩
  case revokeAllByUserID u =>
    obtain ⟨r, hc, rfl, hr⟩ := Relation.exists_of_targets hq rfl hkey
    simp only [Bool.and_eq_true, decide_eq_true_eq] at hc
    exact ⟨rfl, by simp [Stmt.row], _, hr, by simp [Stmt.group, refreshTokenRows, Version.group, hc]⟩
  all_goals cases hq

/-! ## The order of locking -/

/-- A transaction at `q` holds `v`: from a statement before, or from `q` itself, a sweep. -/
inductive Held (q : Stmt) (v : Version) : Prop where
  | before (q' : Stmt) : Before q' q → server.CanWrite q' v → Held q v
  | sweep : q.row = none → server.inserts q = false → server.CanWrite q v → Held q v

/-- How far at most one is who holds something and waits for a row of the table. -/
def TableName.level : TableName → Nat
  | .tenants => 0
  | .categories => 0
  | .users => 1
  | .items => 1
  | .attachments => 1
  | .memberships => 2
  | .reports => 2
  | .passwordResetTokens => 2
  | .refreshTokens => 4

/-- An update of several rows sweeps a group, and is as far as its table. -/
theorem sweep_level (hr : q.row = none) (hi : server.inserts q = false) (hw : server.CanWrite q v) :
    q.level = v.id.table.level ∧ ∃ x, q.group = some x := by
  have ht := table_of_canWrite hw
  obtain ⟨_, _, _, _, hw⟩ := hw
  cases q
  all_goals first
    | exact absurd hw Sem.writes_query
    | (cases hr; done)
    | (cases hi; done)
    | (rw [← Option.some.inj ht]; exact ⟨by simp [Stmt.level, TableName.level], _, rfl⟩)

theorem Held.level_le {t : TableName} (h : Held q u) (ht : q.table = some t) : q.level ≤ t.level := by
  cases h with
  | before q' hb _ => cases hb <;> cases ht <;> simp [Stmt.level, TableName.level]
  | sweep hr hi hw =>
    obtain rfl := Option.some.inj (ht.symm.trans (table_of_canWrite hw))
    exact Nat.le_of_eq (sweep_level hr hi hw).1

/-- Who is as far as that at a table with groups sweeps one. -/
theorem Held.sweeping (h : Held q u) (ht : q.table = some v.id.table) (hx : v.group = some x)
    (hl : q.level = v.id.table.level) : ∃ y, q.group = some y := by
  cases h with
  | before q' hb _ =>
    have ht := ht.symm
    cases v <;> cases hx <;> cases hb
    all_goals first
      | exact ⟨_, rfl⟩
      | (cases ht; done)
      | exact absurd hl (by simp [Stmt.level, TableName.level, Version.id, RowId.table])
  | sweep hr hi hw => exact (sweep_level hr hi hw).2

/-- Who holds a row and waits is further than its table, or sweeps its group. -/
theorem Held.level_lt (h : Held q v) :
    v.id.table.level < q.level ∨ v.id.table.level = q.level ∧ ∃ x, q.group = some x ∧ v.group = some x := by
  cases h with
  | before q' hb hw =>
    have ht := table_of_canWrite hw
    have hg : ∀ x, q'.group = some x → v.group = some x := fun x => group_of_canWrite hw
    cases hb <;> rw [← Option.some.inj ht]
    case itemsAttachments t k => exact Or.inr ⟨rfl, _, rfl, hg _ rfl⟩
    case attachmentsItem t k i => exact Or.inr ⟨rfl, _, rfl, hg _ rfl⟩
    all_goals exact Or.inl (by simp [Stmt.level, TableName.level])
  | sweep hr hi hw =>
    obtain ⟨hl, x, hx⟩ := sweep_level hr hi hw
    exact Or.inr ⟨hl.symm, x, hx, group_of_canWrite hw hx⟩

/-- **Whoever waits is less far than whom it waits for**, or both sweep one group. -/
theorem level_lt {q' : Stmt} (hq : Held q u) (hq' : Held q' v) (ht : q.table = some v.id.table) :
    q.level < q'.level ∨ ∃ x y, q'.group = some x ∧ v.group = some x ∧ q.group = some y := by
  have hle := hq.level_le ht
  rcases hq'.level_lt with hlt | ⟨heq, x, hx, hvx⟩
  · exact Or.inl (Nat.lt_of_le_of_lt hle hlt)
  · by_cases hl : q.level = v.id.table.level
    · obtain ⟨y, hy⟩ := hq.sweeping ht hvx hl
      exact Or.inr ⟨x, y, hx, hvx, hy⟩
    · exact Or.inl (by omega)

end

/-! ## Sessions -/

section

variable {C : World server → Action server → Prop} {d₀ : Database} {w : World server} {i j : Nat}
  {s t : Session server} {q : Stmt} {u v : Version}

/-- An insertion has no row of its own and sweeps nothing. -/
theorem free_of_insert {row : Database → Oracle → Oracle → Except SqlError Version}
    {resp : Version → q.Result} (hq : server.sem q = .insert row resp) : q.row = none ∧ q.group = none := by
  cases q
  all_goals first
    | exact ⟨rfl, rfl⟩
    | cases hq

theorem Blocked.running (hb : s.Blocked d₀ q v) :
    (∃ k, s.prog = .exec (.sql q) k) ∧ ∃ t, s.txn = some t ∧ t.failed = false := by
  cases hb with
  | update hp ht hf => exact ⟨⟨_, hp⟩, _, ht, hf⟩
  | insert o u hp ht hf => exact ⟨⟨_, hp⟩, _, ht, hf⟩

theorem Blocked.not_reads (hb : s.Blocked d₀ q v) : ¬ server.reads q = true := by
  intro hr
  obtain ⟨read, hq⟩ := Engine.query_of_reads hr
  cases hb with
  | update hp ht hf hq' => cases hq.symm.trans hq'
  | insert o u hp ht hf hq' => cases hq.symm.trans hq'

/-- An insertion waits for a user with the same e-mail address only. -/
theorem users_of_insert (hb : s.Blocked d₀ q v) {row : Database → Oracle → Oracle → Except SqlError Version}
    {resp : Version → q.Result} (hq : server.sem q = .insert row resp) :
    q.table = some .users ∧ v.id.table = .users := by
  cases hb with
  | update hp ht hf hq' => cases hq.symm.trans hq'
  | @insert k t row' resp' o u hp ht hf hq' hr htaken hclash hne =>
    have hcan : server.CanWrite q u := by
      refine ⟨s.view d₀, s.view d₀, t.clock, o, ?_⟩
      rw [hq', Sem.writes_insert]
      exact hr
    have hclash : Version.clash u v = true := hclash
    cases u <;> cases v
    case user.user x y => exact ⟨table_of_canWrite hcan, rfl⟩
    all_goals
      simp only [Version.clash, Bool.or_false, decide_eq_true_eq] at hclash
      exact absurd hclash hne

/-- What a session waits for is what its statement is about. -/
theorem aimed (h : Reachable C (.init d₀) w) (hs : w.sessions[i]? = some s) (hb : s.Blocked w.db q v) :
    q.table = some v.id.table ∧ (∀ k, q.row = some k → v.id = k) ∧
      ∀ x, q.group = some x → ∃ p y, s.pending = some p ∧ p.snap.get v.id = some y ∧ y.group = some x := by
  cases hb with
  | @update k t targets apply resp p rest hp ht hf hq hpe hto =>
    obtain ⟨q', k', targets', apply', resp', hp', hq', htodo, _⟩ := (h.source hs).pending p hpe
    cases hp.symm.trans hp'
    cases hq.symm.trans hq'
    obtain ⟨htable, hrow, y, hy, hg⟩ := exists_of_target hq (htodo v.id (hto ▸ List.mem_cons_self))
    exact ⟨htable, hrow, fun x hx => ⟨p, y, hpe, hy, hg x hx⟩⟩
  | insert o u hp ht hf hq hr htaken hclash hne =>
    obtain ⟨hrow, hgroup⟩ := free_of_insert hq
    obtain ⟨htable, hv⟩ := users_of_insert (.insert o u hp ht hf hq hr htaken hclash hne) hq
    refine ⟨hv ▸ htable, fun k hk => ?_, fun x hx => ?_⟩
    · rw [hrow] at hk
      cases hk
    · rw [hgroup] at hx
      cases hx

theorem not_reads_of_canWrite (h : server.CanWrite q v) : ¬ server.reads q = true := by
  obtain ⟨_, _, _, _, hw⟩ := h
  exact not_reads_of_writes hw

/-- The report a call creates is nobody else's, so it waits for no one. -/
theorem not_creating (h : Reachable C (.init d₀) w) (hs : w.sessions[i]? = some s) (hij : i ≠ j)
    (ht : w.sessions[j]? = some t) (hv : v ∈ t.writes) (hb : s.Blocked w.db q v) (actor : Actor)
    (params : CreateReportParams) : s.call ≠ .tenant actor (.createReport params) := by
  intro hcall
  obtain ⟨⟨k, hp⟩, tx, htx, hf⟩ := Blocked.running hb
  have hrole : CallRoleAsks s.call s.trace (.sql q) := h.asked (fun _ c _ => call_roles c) hs hp
  have hask := asked h hs hp
  rw [hcall] at hrole hask
  rcases hrole with ⟨t, rfl⟩ | ⟨_, hreads | hissues⟩
  · exact Blocked.not_reads hb rfl
  · exact Blocked.not_reads hb hreads
  · cases q
    case createReport p => exact absurd (users_of_insert hb rfl).1 (by simp [Stmt.table])
    case createExpenseItem p => exact absurd (users_of_insert hb rfl).1 (by simp [Stmt.table])
    case updateReportTotalAmount t' k' =>
      have hask := (hask.resolve_left Bool.false_ne_true).1
      obtain ⟨_, hper⟩ := hask.editing agree_self
      cases hper with
      | edit he _ => cases he
      | delete he _ => cases he
      | copy hcr =>
        obtain ⟨p, x, hmem, rfl, _⟩ := hcr
        obtain ⟨hheld, _⟩ := createdHeld h hs actor _ tx p x hcall htx hf hmem
        have hid : v.id = .report x.reportID := (aimed h hs hb).2.1 _ rfl
        exact World.locks_disjoint h i j s t hij hs ht _ hheld ⟨v, hv, hid⟩
    all_goals cases hissues

/-- **What a waiting session holds**, it holds by the order of locking. -/
theorem held (h : Reachable C (.init d₀) w) (hs : w.sessions[i]? = some s) (hij : i ≠ j)
    (ht : w.sessions[j]? = some t) (hv : v ∈ t.writes) (hb : s.Blocked w.db q v) (hu : u ∈ s.writes) :
    Held q u := by
  obtain ⟨⟨k, hp⟩, _⟩ := Blocked.running hb
  have hask : s.call.InOrder s.trace (.sql q) := h.asked (fun _ c _ => call_inOrder c) hs hp
  have hask : ExpenseSaas.InOrder s.trace (.sql q) := by
    have hne := not_creating h hs hij ht hv hb
    cases hcall : s.call with
    | tenant actor e =>
      rw [hcall] at hask hne
      cases e with
      | createReport params => exact absurd rfl (hne actor params)
      | _ => exact hask
    | _ =>
      rw [hcall] at hask
      exact hask
  have hask := hask.resolve_left (Blocked.not_reads hb)
  rcases (h.source hs).written u hu with ⟨q', r, hev, hcan⟩ | ⟨q', k', p, hp', hpe, hdone, hcan⟩
  · exact .before q' ((hask q' r hev).resolve_left (not_reads_of_canWrite hcan)) hcan
  · cases hp.symm.trans hp'
    obtain ⟨q', k', targets, apply, resp, hp', hq, _, htargets⟩ := (h.source hs).pending p hpe
    cases hp.symm.trans hp'
    refine .sweep ?_ ?_ hcan
    · -- A single row cannot be both its own and another's.
      refine Option.eq_none_iff_forall_ne_some.mpr fun key hrow => ?_
      have hown : u.id = key := (exists_of_target hq (htargets u hdone)).2.1 key hrow
      have hother : v.id = key := (aimed h hs hb).2.1 key hrow
      exact World.locks_disjoint h i j s t hij hs ht key ⟨u, hu, hown⟩ ⟨v, hv, hother⟩
    · have hq : q.sem = .update targets apply resp := hq
      simp only [Engine.inserts, hq]

end

/-! ## Deadlocks -/

/-- The group the statement of a session sweeps. -/
def sweeping (s : Session server) : Option RowId := match s.prog with
  | .exec (.sql q) _ => q.group
  | _ => none

/-- No two sessions sweep one group. -/
def OneSweep (w : World server) : Prop := (w.sessions.filterMap sweeping).Nodup

/-- How far in the order of locking a session is. -/
def World.level (w : World server) (i : Nat) : Nat := match w.sessions[i]? with
  | some s => match s.prog with
    | .exec (.sql q) _ => q.level
    | _ => 0
  | none => 0

section

variable {C : World server → Action server → Prop} {d₀ : Database} {w : World server} {i j k l : Nat}

theorem OneSweep.eq {s t : Session server} {x : RowId} (h : OneSweep w) (hs : w.sessions[i]? = some s)
    (ht : w.sessions[j]? = some t) (hx : sweeping s = some x) (hy : sweeping t = some x) : i = j := by
  have hpair := List.pairwise_filterMap.mp (show (w.sessions.filterMap sweeping).Pairwise (· ≠ ·) from h)
  obtain ⟨hi, rfl⟩ := List.getElem?_eq_some_iff.mp hs
  obtain ⟨hj, rfl⟩ := List.getElem?_eq_some_iff.mp ht
  rcases Nat.lt_trichotomy i j with hlt | heq | hlt
  · exact absurd rfl (List.pairwise_iff_getElem.mp hpair i j hi hj hlt x hx x hy)
  · exact heq
  · exact absurd rfl (List.pairwise_iff_getElem.mp hpair j i hj hi hlt x hy x hx)

theorem sweeping_of_running {s : Session server} {q : Stmt} {c : Command.Resp (.sql q) → Program Outcome}
    {x : RowId} (hp : s.prog = .exec (.sql q) c) (hx : q.group = some x) : sweeping s = some x := by
  unfold sweeping
  rw [hp]
  exact hx

/-- Whoever waits, and is waited for, is less far than whom it waits for. -/
theorem level_lt_of_waits (h : Reachable C (.init d₀) w) (hone : OneSweep w) (hpa : w.Waits i j)
    (hab : w.Waits j k) (hbc : w.Waits k l) : World.level w j < World.level w k := by
  obtain ⟨_, s, _, u, _, _, hs, hu, _⟩ := hpa
  obtain ⟨s', t, q, v, hjk, hs', ht, hv, hb⟩ := hab
  cases hs.symm.trans hs'
  obtain ⟨t', r, q', v', hkl, ht', hr, hv', hb'⟩ := hbc
  cases ht.symm.trans ht'
  -- The last version `t` has written of the row `s` waits for.
  obtain ⟨v₁, hv₁, hid, hview⟩ := Session.get_view_of_holds ⟨v, hv, rfl⟩
  have hq : Held q u := held h hs hjk ht hv hb hu
  have hq' : Held q' v₁ := held h ht hkl hr hv' hb' hv₁
  obtain ⟨htable, _, hgroup⟩ := aimed h hs hb
  obtain ⟨⟨ks, hps⟩, _⟩ := Blocked.running hb
  obtain ⟨⟨kt, hpt⟩, _⟩ := Blocked.running hb'
  have hls : World.level w j = q.level := by simp [World.level, hs, hps]
  have hlt : World.level w k = q'.level := by simp [World.level, ht, hpt]
  rw [hls, hlt]
  have hid : v₁.id = v.id := hid
  rcases level_lt hq hq' (hid ▸ htable) with hlevel | ⟨x, y, hx, hvx, hy⟩
  · exact hlevel
  · obtain ⟨p, z, hp, hz, hzy⟩ := hgroup y hy
    obtain ⟨z₁, hz₁, hk₁⟩ := kept_respected.snapshot h hs hp v.id z hz
    rw [Session.get_view_of_free fun hheld => World.locks_disjoint h j k s t hjk hs ht v.id hheld ⟨v, hv, rfl⟩] at hz₁
    obtain ⟨z₂, hz₂, hk₂⟩ := kept_respected.relates h ht v.id z₁ hz₁
    obtain rfl := Option.some.inj ((hview w.db).symm.trans hz₂)
    rw [group_of_kept hk₂, group_of_kept hk₁, hzy] at hvx
    obtain rfl := Option.some.inj hvx
    exact absurd (hone.eq hs ht (sweeping_of_running hps hy) (sweeping_of_running hpt hx)) hjk

/--
**There is no deadlock but between sweeps**: where no two sessions sweep one
group, no session waits for itself, and whoever waits has somebody to wait for in
the end who does not wait.
-/
theorem deadlockFree_of_oneSweep (h : Reachable C (.init d₀) w) (hone : OneSweep w) :
    (∀ i, ¬ Relation.TransGen w.Waits i i) ∧
      ∀ i j, w.Waits i j → ∃ k, Relation.TransGen w.Waits i k ∧ ∀ l, ¬ w.Waits k l := by
  have hstep : ∀ p a b c, w.Waits p a → w.Waits a b → w.Waits b c → World.level w a < World.level w b :=
    fun _ _ _ _ => level_lt_of_waits h hone
  refine ⟨not_cyclic hstep, fun i j hij => exists_end hstep (n := 4) (fun a => ?_) hij⟩
  unfold World.level
  split
  · split
    · exact level_le _
    · exact Nat.zero_le _
  · exact Nat.zero_le _

end

/-! ## Two runs -/

namespace Sample

/-- A file on the owner's one item. -/
def file : Attachment :=
  { (default : Attachment) with attachmentID := 3, itemID := 2, reportID := 1, tenantID := 10, createdAt := 5 }

def databaseWithFile : Database := { database with attachments := Table.empty.put file }

/-- The owner renames the report; meanwhile they delete its item, up to the new total. -/
def renameAndDeleteItem : List (Action server) :=
  [.start (.tenant owner (.updateReport 1
      ⟨"journey", ⟨2024, 2, 1⟩, ⟨2024, 2, 3⟩, 5, by decide, by decide⟩)),
    .start (.tenant owner (.deleteItem 1 2))] ++ turns 0 6 100 ++ turns 1 11 200

/-- The owner deletes the item, up to the item itself, and the report, up to the file. -/
def twoDeletions : List (Action server) :=
  [.start (.tenant owner (.deleteItem 1 2)), .start (.tenant owner (.deleteReport 1))] ++
    turns 0 8 100 ++ turns 1 8 200

end Sample

/-- The deletion of the item waits for the report, and the renaming goes on. -/
theorem deadlockFree_of_renameAndDeleteItem : ∃ w : World server,
    Reachable (fun _ _ => True) (.init Sample.databaseWithFile) w ∧ w.Waits 1 0 ∧
      (∀ i, ¬ Relation.TransGen w.Waits i i) ∧
        ∀ i j, w.Waits i j → ∃ k, Relation.TransGen w.Waits i k ∧ ∀ l, ¬ w.Waits k l := by
  have hrun : ((World.init Sample.databaseWithFile : World server).run (fun _ _ => true)
      Sample.renameAndDeleteItem).any (fun w => (w.sessions.filterMap sweeping).Nodup &&
        w.sessions[0]?.any (fun s => decide (s.Holds (.report 1))) &&
        w.sessions[1]?.any (fun s => decide (s.next = some (.report 1)))) = true := by
    decide +kernel
  obtain ⟨w, hw, hP⟩ := exists_of_run (fun _ _ _ => trivial) hrun
  simp only [Bool.and_eq_true, decide_eq_true_eq, Option.any_eq_true] at hP
  obtain ⟨⟨hone, s, hs, hheld⟩, t, ht, hnext⟩ := hP
  exact ⟨w, hw, World.waits_of_next (by decide) ht hs hheld hnext, deadlockFree_of_oneSweep hw hone⟩

/-- **Two deletions can wait for each other**: `DeleteItem` and `DeleteReport` of one report. -/
theorem deadlocked_of_twoDeletions : ∃ w : World server,
    Reachable (fun _ _ => True) (.init Sample.databaseWithFile) w ∧ w.Waits 0 1 ∧ w.Waits 1 0 := by
  have hrun : ((World.init Sample.databaseWithFile : World server).run (fun _ _ => true)
      Sample.twoDeletions).any (fun w =>
        w.sessions[0]?.any (fun s => decide (s.Holds (.attachment 3)) && decide (s.next = some (.item 2))) &&
        w.sessions[1]?.any (fun s => decide (s.Holds (.item 2)) && decide (s.next = some (.attachment 3)))) =
          true := by
    decide +kernel
  obtain ⟨w, hw, hP⟩ := exists_of_run (fun _ _ _ => trivial) hrun
  simp only [Bool.and_eq_true, decide_eq_true_eq, Option.any_eq_true] at hP
  obtain ⟨⟨s, hs, hheld, hnext⟩, t, ht, hheld', hnext'⟩ := hP
  exact ⟨w, hw, World.waits_of_next (by decide) hs ht hheld' hnext, World.waits_of_next (by decide) ht hs hheld hnext'⟩

end ExpenseSaas
