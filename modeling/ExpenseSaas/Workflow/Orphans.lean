import ExpenseSaas.Contract.Shape
import ExpenseSaas.Workflow.Parents

/-!
# What is under a deleted row

Deleting a report or an item deletes everything under it, row by row, and only
then the row itself. Adding under a row looks first whether the row is there. So
one would expect that nothing live is left under a row that is deleted
(`NoOrphans`). Foreign keys do not help, because a deleted row is still a row.

Two things go wrong. What is added can be committed after its parent is deleted
(`ParentLive` excludes it), and it can be committed after the cascade has looked
for it (`CascadeComplete` excludes it). `noOrphans_of_orderly` says that there is
nothing else.
-/

namespace ExpenseSaas

open ReadCommitted Sql

/-! ## Vocabulary -/

/-- The row is not deleted. -/
def Version.live : Version → Bool
  | .report r => r.deletedAt.isNone
  | .item x => x.deletedAt.isNone
  | .attachment a => a.deletedAt.isNone
  | _ => true

/-- The rows a row is under. -/
def Version.above : Version → List RowId
  | .item x => [.report x.reportID]
  | .attachment a => [.item a.itemID, .report a.reportID]
  | _ => []

/-- **Every row has its parent, and what is above a live row is live.** -/
structure NoOrphans (d : Database) : Prop where
  belongs : Belongs d
  live : ∀ k v, d.get k = some v → v.live = true → ∀ pk ∈ v.above,
    ∃ p, d.get pk = some p ∧ p.live = true

/-- The row a call adds to. -/
def Call.addsTo : Call → Option RowId
  | .tenant _ (.createItem k _) => some (.report k)
  | .tenant _ (.uploadAttachment _ i _) => some (.item i)
  | _ => none

/-- The row a call deletes, with everything under it. -/
def Call.takes : Call → Option RowId
  | .tenant _ (.deleteReport k) => some (.report k)
  | .tenant _ (.deleteItem _ i) => some (.item i)
  | _ => none

/-- A transaction that has added to a row commits while the row is live. -/
def ParentLive (w : World server) : Action server → Prop
  | .step i _ => ∀ s pk, w.sessions[i]? = some s → s.Committing → s.call.addsTo = some pk →
      ∃ p, w.db.get pk = some p ∧ p.live = true
  | _ => True

/-- A transaction that deletes a row commits with a hold on everything live under it. -/
def CascadeComplete (w : World server) : Action server → Prop
  | .step i _ => ∀ s pk, w.sessions[i]? = some s → s.Committing → s.call.takes = some pk →
      ∀ k v, w.db.get k = some v → v.live = true → pk ∈ v.above → s.Holds (E := server) k
  | _ => True

theorem Version.Kept.above {v v' : Version} (h : v.Kept v') : v'.above = v.above := by
  cases v <;> cases v' <;> first
    | exact h.elim
    | rfl
    | simp [Version.above, h.reportID, h.itemID]
    | simp [Version.above, h.reportID]

/-- What is deleted stays deleted. -/
theorem Version.Kept.live {v v' : Version} (h : v.Kept v') (hv : v'.live = true) :
    v.live = true := by
  cases v <;> cases v' <;> first
    | exact h.elim
    | rfl
    | skip
  all_goals
    by_contra hdead
    simp only [Version.live, Option.isNone_iff_eq_none] at hv hdead
    have hd := h.deleted (Option.isSome_iff_ne_none.mpr hdead)
    simp [hv] at hd

/-- The rows above a row are there. -/
theorem Belongs.above {d : Database} (hb : Belongs d) {k pk : RowId} {v : Version}
    (hv : d.get k = some v) (hpk : pk ∈ v.above) : ∃ p, d.get pk = some p := by
  cases v with
  | item x =>
    obtain ⟨p, hp, _⟩ := hb k _ hv _ rfl
    rw [List.mem_singleton.mp hpk]
    exact ⟨p, hp⟩
  | attachment a =>
    obtain ⟨p, hp, x, rfl, hr, _⟩ := hb k _ hv _ rfl
    rcases List.mem_cons.mp hpk with rfl | hpk
    · exact ⟨_, hp⟩
    · obtain ⟨r, hr', _⟩ := hb _ _ hp _ rfl
      rw [List.mem_singleton.mp hpk, ← hr]
      exact ⟨r, hr'⟩
  | _ => exact absurd hpk List.not_mem_nil

/-- What is above a row is its parent, or is above its parent. -/
theorem Belongs.above_of_parent {d : Database} (hb : Belongs d) {k pk qk : RowId} {v p : Version}
    (hv : d.get k = some v) (hqk : v.parent = some qk) (hp : d.get qk = some p)
    (hpk : pk ∈ v.above) : pk = qk ∨ pk ∈ p.above := by
  cases v with
  | item x =>
    cases hqk
    exact Or.inl (List.mem_singleton.mp hpk)
  | attachment a =>
    cases hqk
    obtain ⟨p', hp', x, rfl, hr, _⟩ := hb k _ hv _ rfl
    cases hp.symm.trans hp'
    refine (List.mem_cons.mp hpk).imp_right fun hpk => ?_
    rw [List.mem_singleton.mp hpk, ← hr]
    exact List.mem_singleton_self _
  | _ => cases hqk

/-- What is above a parent is above the child. -/
theorem Belongs.above_trans {d : Database} (hb : Belongs d) {k pk pk' : RowId} {v p : Version}
    (hv : d.get k = some v) (hpk : pk ∈ v.above) (hp : d.get pk = some p) (hpk' : pk' ∈ p.above) :
    pk' ∈ v.above := by
  cases v with
  | item x =>
    rw [List.mem_singleton.mp hpk] at hp
    cases p <;> first
      | exact absurd hpk' List.not_mem_nil
      | exact absurd (Database.id_of_get hp) nofun
  | attachment a =>
    obtain ⟨p', hp', x, rfl, hr, _⟩ := hb k _ hv _ rfl
    rcases List.mem_cons.mp hpk with rfl | hpk
    · cases hp.symm.trans hp'
      rw [List.mem_singleton.mp hpk', hr]
      exact List.mem_cons_of_mem _ (List.mem_singleton_self _)
    · rw [List.mem_singleton.mp hpk] at hp
      cases p <;> first
        | exact absurd hpk' List.not_mem_nil
        | exact absurd (Database.id_of_get hp) nofun
  | _ => exact absurd hpk List.not_mem_nil

/-! ## What a session adds and takes away -/

section

variable {C : World server → Action server → Prop} {d₀ : Database} {w : World server} {i : Nat}
  {s : Session server}

/-- Who writes something that belongs to a report, and by which of their statements. -/
theorem issued_below (h : Reachable C (.init d₀) w) (hs : w.sessions[i]? = some s) {q : Stmt}
    {t : Txn server} {v : Version} (hv : Writing w.db (w.others i) s q t v) {u : UUID}
    (hu : v.tenantID = some u) : ∃ actor e, s.call = .tenant actor e ∧ e.issues q = true := by
  obtain ⟨actor, e, hcall, _⟩ := tenant_of_writing h hs hv hu
  exact ⟨actor, e, hcall, (issued_of_writing h hs hcall hv).2⟩

/-- Nothing above a row that a deletion writes is left live. -/
theorem takes_of_writes (h : Reachable C (.init d₀) w) (hs : w.sessions[i]? = some s) :
    ∀ v ∈ s.writes, Version.live v = true → Version.above v ≠ [] → s.call.takes = none := by
  refine h.writes_rule (P := fun (call : Call) v => Version.live v = true → Version.above v ≠ [] →
    call.takes = none) (fun {w i o s q t v} hw _ hs hv hlive habove => ?_) hs
  obtain ⟨snap, o', hwr⟩ := hv.writes
  cases v with
  | item x =>
    obtain ⟨actor, e, hcall, hq⟩ := issued_below hw hs hv rfl
    have hwr : ItemWrite snap (s.view w.db) t.clock o' q x := item_writes hwr
    rw [hcall]
    cases hwr with
    | create => rcases issues_createItem hq with ⟨_, rfl⟩ | ⟨_, rfl⟩ <;> rfl
    | edit =>
      obtain ⟨_, _, _, rfl⟩ := issues_updateItem hq
      rfl
    | softDelete => cases hlive
    | softDeleteAll => cases hlive
  | attachment a =>
    obtain ⟨actor, e, hcall, hq⟩ := issued_below hw hs hv rfl
    have hwr : AttachmentWrite snap (s.view w.db) t.clock o' q a := attachment_writes hwr
    rw [hcall]
    cases hwr with
    | create =>
      obtain ⟨_, rfl⟩ := issues_createAttachment hq
      rfl
    | softDelete => cases hlive
    | softDeleteOfItem => cases hlive
    | softDeleteAll => cases hlive
  | _ => exact absurd rfl habove

/-- What a session may have made of a row that other rows are under. -/
def Taken (call : Call) (k : RowId) (old new : Option Version) : Prop :=
  ∀ p, new = some p → p.live = false → (∃ a, p = .attachment a) ∨
    (∃ p₀, old = some p₀ ∧ p₀.live = false) ∨ ∃ pk, (pk = k ∨ pk ∈ p.above) ∧ call.takes = some pk

/-- **Only a deletion deletes**: the row itself, or something it is under. -/
theorem taken_relates (h : Reachable C (.init d₀) w) (hs : w.sessions[i]? = some s) :
    s.Relates (Taken s.call) w.db := by
  refine h.relates (R := fun call _ => Taken call) ?_ (fun _ _ _ _ _ _ hr => hr) ?_ hs
  · rintro call tr k v p rfl hp
    exact Or.inr (Or.inl ⟨p, rfl, hp⟩)
  · rintro w i o s q t v hw _ hs hrel hv p hp hdead
    cases hp
    obtain ⟨snap, o', hwr⟩ := hv.writes
    cases v with
    | report r =>
      obtain ⟨actor, e, hcall, hq⟩ := issued_below hw hs hv rfl
      have hwr : ReportWrite snap (s.view w.db) t.clock o' q r := report_writes hwr
      cases hwr with
      | create hrow =>
        obtain ⟨_, _, rfl⟩ := reportRow_ok hrow
        cases hdead
      | edit hx hid hxv hset =>
        obtain ⟨_, _, rfl⟩ := setReport_ok hset
        simp only [reportIs, Bool.and_eq_true] at hid
        -- the WHERE lets no deleted report through
        exact absurd (hid.2.symm.trans hdead) (by simp)
      | status hx hid hxv hset =>
        obtain ⟨_, _, _, _, rfl⟩ := setReportStatus_ok hset
        simp only [reportIs, Bool.and_eq_true] at hid
        exact absurd (hid.2.symm.trans hdead) (by simp)
      | @softDelete t k x hx hid =>
        refine Or.inr (Or.inr ⟨_, Or.inl rfl, ?_⟩)
        simp only [reportIs, Bool.and_eq_true, decide_eq_true_eq] at hid
        rw [hcall, issues_softDeleteReport hq, ← hid.1.2]
        rfl
      | @total t k x _ hx ht hk hset =>
        rw [setReportTotalAmount_ok hset] at hdead ⊢
        have hview : (s.view w.db).get (.report x.reportID) = some (.report x) :=
          (reportRows.mem_rows _ _).mp hx
        -- the total of a report may be written after its deletion, which is then of this call
        rcases hrel (RowId.report x.reportID) _ hview hdead with ⟨a, ha⟩ | hold | hrest
        · cases ha
        · exact Or.inr (Or.inl hold)
        · exact Or.inr (Or.inr hrest)
    | item x =>
      obtain ⟨actor, e, hcall, hq⟩ := issued_below hw hs hv rfl
      have hwr : ItemWrite snap (s.view w.db) t.clock o' q x := item_writes hwr
      cases hwr with
      | create hrow =>
        obtain ⟨_, _, rfl⟩ := itemRow_ok hrow
        cases hdead
      | edit hx hid hset =>
        obtain ⟨_, rfl⟩ := setItem_ok hset
        simp only [itemOf, Bool.and_eq_true] at hid
        exact absurd (hid.2.symm.trans hdead) (by simp)
      | softDelete hx hid hi =>
        refine Or.inr (Or.inr ⟨_, Or.inl rfl, ?_⟩)
        rw [hcall, issues_softDeleteItem hq, ← hi]
        rfl
      | softDeleteAll hx hid =>
        simp only [itemOf, Bool.and_eq_true, decide_eq_true_eq] at hid
        refine Or.inr (Or.inr ⟨_, Or.inr (List.mem_singleton_self _), ?_⟩)
        rw [hcall, issues_softDeleteItems hq, ← hid.1.2]
        rfl
    -- attachments may be deleted on their own
    | attachment a => exact Or.inl ⟨a, rfl⟩
    | _ => cases hdead

/-- Items are copied to the report the request has created. -/
theorem created_of_copy {actor : Actor} {tr : Trace} {params : CreateReportParams}
    {p : CreateExpenseItemParams}
    (h : CallMayWrite tr (.tenant actor (.createReport params)) (.createExpenseItem p)) :
    Created actor tr p.reportID := by
  cases h with
  | request h =>
    cases h with
    | copy hcr hq =>
      simp only [Stmt.editsIn, Bool.and_eq_true, decide_eq_true_eq] at hq
      exact hq.2 ▸ hcr
    | edit he => cases he
    | delete he => cases he
  | auth h => cases h

/-- The session has created the report itself. -/
def Copied (call : Call) (tr : Trace) (pk : RowId) : Prop :=
  ∃ actor params k, call = .tenant actor (.createReport params) ∧ Created actor tr k ∧
    pk = .report k

/-- Where a session may have put a row that is not committed. -/
def Added (call : Call) (tr : Trace) (_ : RowId) (old new : Option Version) : Prop :=
  ∀ v, new = some v → old = none → ∀ pk, v.parent = some pk →
    call.addsTo = some pk ∨ Copied call tr pk

/-- **A row is added to the row the call names**, or to a report the session has created. -/
theorem added_relates (h : Reachable C (.init d₀) w) (hs : w.sessions[i]? = some s) :
    s.Relates (Added s.call s.trace) w.db := by
  refine h.relates (R := Added) ?_ ?_ ?_ hs
  · rintro call tr k v x rfl hold
    cases hold
  · intro call tr evs k a b hab v hv hold pk hpk
    refine (hab v hv hold pk hpk).imp_right ?_
    rintro ⟨actor, params, k, hcall, hcr, rfl⟩
    exact ⟨actor, params, k, hcall, hcr.append evs, rfl⟩
  · rintro w i o s q t v hw _ hs hrel hv x hx hold pk hpk
    cases hx
    obtain ⟨snap, o', hwr⟩ := hv.writes
    cases v with
    | item x =>
      cases hpk
      obtain ⟨actor, e, hcall, hq⟩ := issued_below hw hs hv rfl
      have hmay := may_write hw hs hv
      have hwr : ItemWrite snap (s.view w.db) t.clock o' q x := item_writes hwr
      -- a version of an item that was there is under the same report
      have hview : ∀ y, y ∈ (s.view w.db).items.rows → y.itemID = x.itemID →
          y.reportID = x.reportID → s.call.addsTo = some (.report x.reportID) ∨
            Copied s.call s.trace (.report x.reportID) := by
        intro y hy hi hr
        have hget : (s.view w.db).get (.item x.itemID) = some (.item y) :=
          hi ▸ (itemRows.mem_rows _ _).mp hy
        exact hr ▸ hrel (RowId.item x.itemID) _ hget hold _ rfl
      cases hwr with
      | @create p _ hrow =>
        obtain ⟨_, _, rfl⟩ := itemRow_ok hrow
        -- added by CreateItem, or copied by CreateReport
        rcases issues_createItem hq with ⟨params, rfl⟩ | ⟨params, rfl⟩
        · exact Or.inl (hcall ▸ rfl)
        · refine Or.inr ⟨actor, params, p.reportID, hcall, ?_, rfl⟩
          rw [hcall] at hmay
          exact created_of_copy hmay
      | edit hx hid hset =>
        obtain ⟨_, rfl⟩ := setItem_ok hset
        exact hview _ hx rfl rfl
      | softDelete hx hid hi => exact hview _ hx rfl rfl
      | softDeleteAll hx hid => exact hview _ hx rfl rfl
    | attachment a =>
      cases hpk
      obtain ⟨actor, e, hcall, hq⟩ := issued_below hw hs hv rfl
      have hwr : AttachmentWrite snap (s.view w.db) t.clock o' q a := attachment_writes hwr
      -- and one of an attachment under the same item
      have hview : ∀ y, y ∈ (s.view w.db).attachments.rows → y.attachmentID = a.attachmentID →
          y.itemID = a.itemID → s.call.addsTo = some (.item a.itemID) ∨
            Copied s.call s.trace (.item a.itemID) := by
        intro y hy hi hr
        have hget : (s.view w.db).get (.attachment a.attachmentID) = some (.attachment y) :=
          hi ▸ (attachmentRows.mem_rows _ _).mp hy
        exact hr ▸ hrel (RowId.attachment a.attachmentID) _ hget hold _ rfl
      cases hwr with
      | @create p _ hrow =>
        obtain ⟨_, _, _, hitem, _⟩ := attachmentRow_ok hrow
        refine Or.inl ?_
        obtain ⟨_, rfl⟩ := issues_createAttachment hq
        rw [hcall, hitem]
        rfl
      | softDelete hx hid => exact hview _ hx rfl rfl
      | softDeleteOfItem hx hid => exact hview _ hx rfl rfl
      | softDeleteAll hx hid => exact hview _ hx rfl rfl
    | _ => cases hpk

/-! ## At the commit -/

/-- What is above a row that is live after a commit is live after it. -/
theorem live_of_commit (h₀ : Belongs d₀) (h : Reachable C (.init d₀) w)
    (hs : w.sessions[i]? = some s) (hc : s.Committing) (hI : NoOrphans w.db)
    (hadds : ∀ pk, s.call.addsTo = some pk → ∃ p, w.db.get pk = some p ∧ p.live = true)
    (htakes : ∀ pk, s.call.takes = some pk → ∀ k v, w.db.get k = some v → v.live = true →
      pk ∈ v.above → s.Holds (E := server) k)
    {k pk : RowId} {v : Version} (hv : (s.view w.db).get k = some v) (hlive : v.live = true)
    (hpk : pk ∈ v.above) : ∃ p, (s.view w.db).get pk = some p ∧ p.live = true := by
  have hb : Belongs (s.view w.db) := (belongs_view h₀ h).2 i s hs
  obtain ⟨p, hp⟩ := hb.above hv hpk
  refine ⟨p, hp, ?_⟩
  by_contra hdead
  have hdead : p.live = false := by simpa using hdead
  have hkept := kept_respected.relates h hs
  -- A call that deletes what is above leaves no live row behind.
  have hcascade : ∀ pk', s.call.takes = some pk' → pk' ∈ v.above → False := by
    intro pk' ht hmem
    by_cases hheld : s.Holds (E := server) k
    · obtain ⟨x, hx, _, hget⟩ := Session.get_view_of_holds hheld
      cases (hget w.db).symm.trans hv
      have hnone := takes_of_writes h hs v hx hlive (List.ne_nil_of_mem hpk)
      exact nomatch hnone.symm.trans ht
    · have hcom : w.db.get k = some v :=
        (Session.get_view_of_free (E := server) hheld).symm.trans hv
      exact hheld (htakes pk' ht k v hcom hlive hmem)
  -- What is above was live when the row was committed, or when it was added.
  have hlives : ∀ p₀, w.db.get pk = some p₀ → p₀.live = false → False := by
    intro p₀ hp₀ hd₀
    have hlive₀ : ∀ y, w.db.get pk = some y → y.live = true → False := by
      intro y hy hyl
      cases hp₀.symm.trans hy
      exact nomatch hyl.symm.trans hd₀
    cases hold : w.db.get k with
    | some v₀ =>
      obtain ⟨v', hv', hk⟩ := hkept k v₀ hold
      cases hv.symm.trans hv'
      obtain ⟨y, hy, hyl⟩ := hI.live k v₀ hold (hk.live hlive) pk (hk.above ▸ hpk)
      exact hlive₀ y hy hyl
    | none =>
      obtain ⟨qk, hqk⟩ : ∃ qk, v.parent = some qk := by
        cases v with
        | item x => exact ⟨_, rfl⟩
        | attachment a => exact ⟨_, rfl⟩
        | _ => exact absurd hpk List.not_mem_nil
      rcases added_relates h hs k v hv hold qk hqk with hadd | ⟨actor, params, j, hcall, hcr, rfl⟩
      · obtain ⟨y, hy, hyl⟩ := hadds qk hadd
        obtain ⟨y', hy', hk⟩ := hkept qk y hy
        rcases hb.above_of_parent hv hqk hy' hpk with rfl | hmem
        · exact hlive₀ y hy hyl
        · obtain ⟨z, hz, hzl⟩ := hI.live qk y hy hyl pk (hk.above ▸ hmem)
          exact hlive₀ z hz hzl
      · obtain ⟨_, t, ht, hf⟩ := hc
        obtain ⟨p', x, hmem, rfl, _⟩ := hcr
        have hnone := (createdHeld h hs actor _ t p' x hcall ht hf hmem).2
        cases v with
        | item z =>
          rw [List.mem_singleton.mp hpk, Option.some.inj hqk] at hp₀
          exact nomatch hp₀.symm.trans hnone
        | _ => cases hqk
  rcases taken_relates h hs pk p hp hdead with ⟨a, rfl⟩ | ⟨p₀, hp₀, hd₀⟩ | ⟨pk', hpk', ht⟩
  · cases v with
    | item x =>
      rw [List.mem_singleton.mp hpk] at hp
      exact absurd (Database.id_of_get hp) nofun
    | attachment a =>
      have hid := Database.id_of_get hp
      simp only [Version.above, List.mem_cons, List.not_mem_nil, or_false] at hpk
      rcases hpk with rfl | rfl <;> cases hid
    | _ => exact absurd hpk List.not_mem_nil
  · exact hlives p₀ hp₀ hd₀
  · refine hcascade pk' ht ?_
    rcases hpk' with rfl | hpk'
    · exact hpk
    · exact hb.above_trans hv hpk hp hpk'

/--
**Nothing live is left under a deleted row, as long as additions and cascades do
not miss each other.** In every run in which whoever adds to a row commits while
the row is live, and whoever deletes a row commits with a hold on everything live
under it, every row has its parent and agrees with it, and what is above a live
row is live.
-/
theorem noOrphans_of_orderly (hparent : ∀ w a, C w a → ParentLive w a)
    (hcascade : ∀ w a, C w a → CascadeComplete w a) (h₀ : NoOrphans d₀)
    (h : Reachable C (.init d₀) w) : NoOrphans w.db := by
  refine ⟨(belongs_view h₀.belongs h).1, ?_⟩
  refine h.history_rule (I := fun d : Database => ∀ k v, d.get k = some v → v.live = true →
    ∀ pk ∈ v.above, ∃ p, d.get pk = some p ∧ p.live = true) h₀.live ?_ w.db h.db_mem_history
  intro w i o s s' d' hw hC hs hm hI k v hv hlive pk hpk
  have hc := hm.committing
  obtain rfl := hm.publishes
  exact live_of_commit h₀.belongs hw hs hc ⟨(belongs_view h₀.belongs hw).1, hI⟩
    (fun pk hadd => hparent _ _ hC s pk hs hc hadd)
    (fun pk ht => hcascade _ _ hC s pk hs hc ht) hv hlive hpk

end

/-! ## Two runs -/

namespace Sample

/-- The owner adds an item and deletes the report. -/
def addThenDelete : List (Action server) :=
  [.start (.tenant owner (.createItem 1 newItem))] ++ turns 0 11 100 ++
    [.start (.tenant owner (.deleteReport 1))] ++ turns 1 14 200

/-- The owner starts to add an item, deletes the report in another window, and then it is added. -/
def orphanItem : List (Action server) :=
  [.start (.tenant owner (.createItem 1 newItem))] ++ turns 0 3 100 ++
    [.start (.tenant owner (.deleteReport 1))] ++ turns 1 13 200 ++ turns 0 8 300

/-- The rows that `pk` is above. -/
def below (d : Database) (pk : RowId) : List Version :=
  (d.items.rows.map Version.item ++ d.attachments.rows.map Version.attachment).filter
    fun v => pk ∈ v.above

/-- A check that implies `ParentLive` and `CascadeComplete`. -/
def orderly (w : World server) : Action server → Bool
  | .step i _ => (w.sessions[i]?).all fun s => match s.prog with
      | .exec .commit _ =>
          (s.call.addsTo.all fun pk => (w.db.get pk).any Version.live) &&
            s.call.takes.all fun pk => (below w.db pk).all fun v =>
              !v.live || s.writes.any fun u => Version.id u = v.id
      | _ => true
  | _ => true

end Sample

theorem Sample.mem_below {d : Database} {k pk : RowId} {v : Version} (hv : d.get k = some v)
    (hpk : pk ∈ v.above) : v ∈ Sample.below d pk := by
  refine List.mem_filter.mpr ⟨?_, decide_eq_true hpk⟩
  obtain rfl := Database.id_of_get hv
  cases v with
  | item x =>
    exact List.mem_append_left _ (List.mem_map_of_mem ((itemRows.mem_rows _ _).mpr hv))
  | attachment a =>
    exact List.mem_append_right _ (List.mem_map_of_mem ((attachmentRows.mem_rows _ _).mpr hv))
  | _ => exact absurd hpk List.not_mem_nil

theorem Sample.orderly_sound {w : World server} {a : Action server}
    (h : Sample.orderly w a = true) : ParentLive w a ∧ CascadeComplete w a := by
  cases a with
  | step i o =>
    have hcheck : ∀ s, w.sessions[i]? = some s → s.Committing →
        (∀ pk, s.call.addsTo = some pk → ((w.db.get pk).any Version.live) = true) ∧
          ∀ pk, s.call.takes = some pk → ∀ v ∈ Sample.below w.db pk, v.live = true →
            s.Holds (E := server) v.id := by
      rintro s hs ⟨⟨k, hk⟩, _⟩
      have hs' := (Option.all_eq_true _ _).mp h s hs
      rw [hk] at hs'
      simp only [Bool.and_eq_true, Option.all_eq_true, List.all_eq_true, Bool.or_eq_true,
        Bool.not_eq_true', List.any_eq_true, decide_eq_true_eq] at hs'
      refine ⟨hs'.1, fun pk ht v hv hl => ?_⟩
      exact (hs'.2 pk ht v hv).resolve_left (by simp [hl])
    constructor
    · intro s pk hs hc hadd
      exact (Option.any_eq_true _ _).mp ((hcheck s hs hc).1 pk hadd)
    · intro s pk hs hc ht k v hv hl hpk
      obtain rfl := Database.id_of_get hv
      exact (hcheck s hs hc).2 pk ht v (Sample.mem_below hv hpk) hl
  | _ => exact ⟨trivial, trivial⟩

theorem Sample.noOrphans : NoOrphans Sample.database := by
  refine ⟨Sample.belongs, fun k v hv _ pk hpk => ?_⟩
  obtain rfl := Database.id_of_get hv
  cases v with
  | item x =>
    rw [List.mem_singleton.mp ((itemRows.mem_rows _ _).mpr hv)] at hpk
    rw [List.mem_singleton.mp hpk]
    exact ⟨.report Sample.report, rfl, rfl⟩
  | attachment a => exact absurd ((attachmentRows.mem_rows _ _).mpr hv) List.not_mem_nil
  | _ => exact absurd hpk List.not_mem_nil

/-- The item that was added is found by the cascade and deleted with the report. -/
theorem noOrphans_of_addThenDelete : ∃ w : World server,
    Reachable (fun w a => Sample.orderly w a = true) (.init Sample.database) w ∧
      w.log.length = 2 ∧ NoOrphans w.db := by
  have hrun : ((World.init Sample.database : World server).run Sample.orderly
      Sample.addThenDelete).any (fun w => w.log.length = 2) = true := by
    decide +kernel
  obtain ⟨w, hw, hlen⟩ := exists_of_run (fun _ _ h => h) hrun
  exact ⟨w, hw, of_decide_eq_true hlen, noOrphans_of_orderly
    (fun _ _ h => (Sample.orderly_sound h).1) (fun _ _ h => (Sample.orderly_sound h).2)
    Sample.noOrphans hw⟩

/-- **An item is added to a report that is deleted.** -/
theorem not_noOrphans_of_orphanItem : NoOrphans Sample.database ∧ ∃ w : World server,
    Reachable (fun _ _ => True) (.init Sample.database) w ∧ ¬ NoOrphans w.db := by
  refine ⟨Sample.noOrphans, ?_⟩
  have hrun : ((World.init Sample.database : World server).run (fun _ _ => true)
      Sample.orphanItem).any (fun w => w.db.items.rows.any fun x =>
        x.reportID = 1 && x.deletedAt.isNone &&
          (w.db.reports.find 1).all fun r => r.deletedAt.isSome) = true := by
    decide +kernel
  obtain ⟨w, hw, hx⟩ := exists_of_run (C := fun _ _ => True) (fun _ _ _ => trivial) hrun
  refine ⟨w, hw, fun hno => ?_⟩
  simp only [List.any_eq_true, Bool.and_eq_true, decide_eq_true_eq, Option.all_eq_true] at hx
  obtain ⟨x, hmem, ⟨hk, hlive⟩, hdead⟩ := hx
  obtain ⟨p, hp, hpl⟩ := hno.live (.item x.itemID) (.item x)
    (get_item.mpr (Table.find_of_mem hmem)) hlive _ (List.mem_singleton_self _)
  rw [hk] at hp
  cases p with
  | report r =>
    have hd := hdead r (get_report.mp hp)
    simp only [Version.live, Option.isNone_iff_eq_none] at hpl
    simp [hpl] at hd
  | _ => exact nomatch Database.id_of_get hp

end ExpenseSaas
