import ExpenseSaas.Workflow.Checks

/-!
# What belongs to what

An item belongs to a report and an attachment to an item. The rows repeat the
tenant, and an attachment the report, of what they belong to. `Belongs` says
that the parent of every row is there and that what is repeated agrees. Every
session sees such a database, whatever the others do (`belongs_view`): a request
stays in its tenant (`tenant_of_writing`), and parents never go away. In the same
way every report has its owner (`owned_view`); what the two have in common is
said of any `Reference`.

Whether the parent is *live* is another matter, and needs a condition.
-/

namespace ExpenseSaas

open ReadCommitted Sql

/-- The tenant of a row that belongs to a report. -/
def Version.tenantID : Version → Option UUID
  | .report r => some r.tenantID
  | .item x => some x.tenantID
  | .attachment a => some a.tenantID
  | _ => none

/-- The row a row belongs to. -/
def Version.parent : Version → Option RowId
  | .item x => some (.report x.reportID)
  | .attachment a => some (.item a.itemID)
  | _ => none

/-- `p` and its child agree on what they both say. -/
def Version.Agrees (p : Version) : Version → Prop
  | .item x => ∃ r, p = .report r ∧ r.tenantID = x.tenantID
  | .attachment a => ∃ x, p = .item x ∧ x.reportID = a.reportID ∧ x.tenantID = a.tenantID
  | _ => True

/-- Every row has its parent, and agrees with it. -/
def Belongs (d : Database) : Prop := ∀ k v, d.get k = some v → ∀ pk, v.parent = some pk →
  ∃ p, d.get pk = some p ∧ p.Agrees v

theorem Version.Agrees.kept {p p' v : Version} (h : p.Agrees v) (hk : p.Kept p') : p'.Agrees v := by
  cases v with
  | item x =>
    obtain ⟨r, rfl, ht⟩ := h
    cases p' with
    | report r' => exact ⟨r', rfl, hk.tenantID.trans ht⟩
    | _ => exact hk.elim
  | attachment a =>
    obtain ⟨x, rfl, hr, ht⟩ := h
    cases p' with
    | item x' => exact ⟨x', rfl, hk.reportID.trans hr, hk.tenantID.trans ht⟩
    | _ => exact hk.elim
  | _ => trivial

/-! ## References -/

/-- What a row refers to, and what it says about it, as later versions of it go on to do. -/
structure Reference where
  parent : Version → Option RowId
  Agrees : Version → Version → Prop
  later : ∀ {p p' v}, Agrees p v → p.Kept p' → Agrees p' v

/-- Every row has what it refers to, and agrees with it. -/
def Reference.Holds (R : Reference) (d : Database) : Prop := ∀ k v, d.get k = some v →
  ∀ pk, R.parent v = some pk → ∃ p, d.get pk = some p ∧ R.Agrees p v

/-- One more row version leaves every row with what it refers to. -/
theorem Reference.Holds.put {R : Reference} {d : Database} {v : Version} (hb : R.Holds d)
    (hv : ∀ pk, R.parent v = some pk → ∃ p, d.get pk = some p ∧ R.Agrees p v)
    (hk : kept.le v.id (d.get v.id) (some v)) : R.Holds (d.put v) := by
  have hparent : ∀ pk p, d.get pk = some p → ∃ p', (d.put v).get pk = some p' ∧ p.Kept p' := by
    intro pk p hp
    rw [Database.get_put]
    split
    · rename_i hid
      subst hid
      obtain ⟨v', hv', hkept⟩ := hk p hp
      cases hv'
      exact ⟨v, rfl, hkept⟩
    · exact ⟨p, hp, .refl p⟩
  intro k x hx pk hpk
  have hfind : ∃ p, d.get pk = some p ∧ R.Agrees p x := by
    rw [Database.get_put] at hx
    split at hx
    · cases hx
      exact hv pk hpk
    · exact hb k x hx pk hpk
  obtain ⟨p, hp, hag⟩ := hfind
  obtain ⟨p', hp', hkept⟩ := hparent pk p hp
  exact ⟨p', hp', R.later hag hkept⟩

/-- **What every write respects every session sees**, and what is committed with it. -/
theorem Reference.view {C : World server → Action server → Prop} {d₀ : Database} {w : World server}
    (R : Reference) (h₀ : R.Holds d₀)
    (hwriting : ∀ {w i s q t v}, Reachable C (.init d₀) w → w.sessions[i]? = some s →
      R.Holds (s.view w.db) → Writing w.db (w.others i) s q t v → ∀ pk, R.parent v = some pk →
        ∃ p, (s.view w.db).get pk = some p ∧ R.Agrees p v)
    (h : Reachable C (.init d₀) w) :
    R.Holds w.db ∧ ∀ (i : Nat) (s : Session server), w.sessions[i]? = some s → R.Holds (s.view w.db) := by
  refine h.joint_rule (I := R.Holds) (P := fun d _ _ s => R.Holds (s.view d)) h₀ ?_ ?_ ?_ ?_ ?_
  · intro w c _ _ hI
    exact hI
  · intro w i o s s' d' _ _ _ hall hs hm
    rw [hm.publishes]
    exact hall i s hs
  · intro w i o s s' d' hw hc hI hall hs hm
    have ih := hall i s hs
    cases hm.effect with
    | quiet hwr =>
      show R.Holds (s'.view w.db)
      rwa [Session.view_congr hwr]
    | undo hwr =>
      show R.Holds (s'.view w.db)
      rwa [Session.view_of_writes_nil hwr]
    | wrote v hv hwr =>
      show R.Holds (s'.view w.db)
      rw [Session.view_of_wrote hwr]
      exact ih.put (hwriting hw hs ih hv) (kept_respected hw hc hs hv)
    | publish hp ht hf hwr =>
      show R.Holds (s'.view (s.view w.db))
      rwa [Session.view_of_writes_nil hwr]
  · intro w i s s' _ hI _ _ hb
    rwa [Session.view_of_writes_nil hb.writes]
  · intro w i j o s s' t d' hw _ _ hall hij hs ht hm k v hv pk hpk
    rw [hm.publishes] at hv ⊢
    have hpub : ∀ k, (t.view (s.view w.db)).get k = if t.Holds k then (t.view w.db).get k
        else (s.view w.db).get k := fun k => Session.get_view_publish (E := server)
    -- session `i` commits: which of the two holds the row, which its parent
    have hap := World.locks_disjoint hw i j s t hij hs ht
    rw [hpub] at hv ⊢
    by_cases hvk : t.Holds k
    · rw [if_pos hvk] at hv
      obtain ⟨p, hp, hag⟩ := hall j t ht k v hv pk hpk
      by_cases hpt : t.Holds pk
      · exact ⟨p, by rw [if_pos hpt]; exact hp, hag⟩
      · -- The row referred to is committed, and what is committed now is a later version of it.
        have hfree : (t.view w.db).get pk = w.db.get pk := Session.get_view_of_free hpt
        obtain ⟨p', hp', hkept⟩ := kept_respected.relates hw hs pk p (hfree.symm.trans hp)
        exact ⟨p', by rw [if_neg hpt]; exact hp', R.later hag hkept⟩
    · rw [if_neg hvk] at hv
      -- the row is of the committed state, to which `i` has added its own
      obtain ⟨p, hp, hag⟩ := hall i s hs k v hv pk hpk
      by_cases hpt : t.Holds pk
      · have hfree : (s.view w.db).get pk = w.db.get pk :=
          Session.get_view_of_free fun hps => hap pk hps hpt
        obtain ⟨p', hp', hkept⟩ := kept_respected.relates hw ht pk p (hfree.symm.trans hp)
        exact ⟨p', by rw [if_pos hpt]; exact hp', R.later hag hkept⟩
      · exact ⟨p, by rw [if_neg hpt]; exact hp, hag⟩

section

variable {C : World server → Action server → Prop} {d₀ : Database} {w : World server} {i : Nat}
  {s : Session server}

/-! ## The tenant -/

theorem ReportChange.tenantID {actor : Actor} {tr : Trace} {snap cur : Database} {clock o : Oracle}
    {e : Endpoint} {r : ExpenseReport} (h : ReportChange actor tr snap cur clock o e r)
    (hread : ∀ k x, ReadReport actor tr k x → x.tenantID = actor.tenantID) :
    r.tenantID = actor.tenantID := by
  cases h with
  | create hnone hr =>
    obtain ⟨_, _, rfl⟩ := reportRow_ok hr
    rfl
  | update hr hu hd hv hc hx hid hxv hs =>
    obtain ⟨_, _, rfl⟩ := setReport_ok hs
    simp only [reportIs, Bool.and_eq_true, decide_eq_true_eq] at hid
    exact hid.1.1.trans (hread _ _ hr)
  | status hver hr hv hT hc hx hid hxv hs =>
    obtain ⟨_, _, _, _, rfl⟩ := setReportStatus_ok hs
    simp only [reportIs, Bool.and_eq_true, decide_eq_true_eq] at hid
    exact hid.1.1.trans (hT.key.2.1.trans (hread _ _ hr))
  | delete he hd hx hid =>
    simp only [reportIs, Bool.and_eq_true, decide_eq_true_eq] at hid
    exact hid.1.1
  | total hp hx ht hk hs =>
    rw [setReportTotalAmount_ok hs]
    exact ht

theorem ItemChange.tenantID {actor : Actor} {tr : Trace} {snap cur : Database} {clock o : Oracle}
    {e : Endpoint} {x : ExpenseItem} (h : ItemChange actor tr snap cur clock o e x) :
    x.tenantID = actor.tenantID := by
  cases h with
  | create hp ht hnone hi =>
    obtain ⟨_, _, rfl⟩ := itemRow_ok hi
    exact ht
  | edit hp ht hx hid hs =>
    obtain ⟨_, rfl⟩ := setItem_ok hs
    simp only [itemOf, Bool.and_eq_true, decide_eq_true_eq] at hid
    exact hid.1.1.trans ht
  | delete hp hx hid =>
    simp only [itemOf, Bool.and_eq_true, decide_eq_true_eq] at hid
    exact hid.1.1

theorem AttachmentChange.tenantID {actor : Actor} {tr : Trace} {snap cur : Database}
    {clock o : Oracle} {e : Endpoint} {a : Attachment}
    (h : AttachmentChange actor tr snap cur clock o e a) : a.tenantID = actor.tenantID := by
  cases h with
  | create hp ht hnone ha => exact (attachmentRow_ok ha).2.2.1.trans ht
  | delete hp hx hid =>
    simp only [attachmentOf, Bool.and_eq_true, decide_eq_true_eq] at hid
    exact hid.1.1

/-- **A request writes in its own tenant.** -/
theorem tenant_of_writing (h : Reachable C (.init d₀) w) (hs : w.sessions[i]? = some s) {q : Stmt}
    {t : Txn server} {v : Version} (hv : Writing w.db (w.others i) s q t v) {u : UUID}
    (hu : v.tenantID = some u) : ∃ actor e, s.call = .tenant actor e ∧ u = actor.tenantID := by
  cases v with
  | report r =>
    obtain ⟨actor, e, snap, o, hcall, hc⟩ := report_change h hs hv
    cases hu
    exact ⟨actor, e, hcall, hc.tenantID fun k x hx => (read_report h hs hx).2.1⟩
  | item x =>
    obtain ⟨actor, e, snap, o, hcall, hc⟩ := item_change h hs hv
    cases hu
    exact ⟨actor, e, hcall, hc.tenantID⟩
  | attachment a =>
    obtain ⟨actor, e, snap, o, hcall, hc⟩ := attachment_change h hs hv
    cases hu
    exact ⟨actor, e, hcall, hc.tenantID⟩
  | _ => cases hu

/-- And so everything it has written is its own tenant's. -/
theorem tenant_of_writes (h : Reachable C (.init d₀) w) (hs : w.sessions[i]? = some s) :
    ∀ v ∈ s.writes, ∀ u, Version.tenantID v = some u →
      ∃ actor e, s.call = .tenant actor e ∧ u = actor.tenantID :=
  h.writes_rule (P := fun (call : Call) v => ∀ u, Version.tenantID v = some u →
    ∃ actor e, call = .tenant actor e ∧ u = actor.tenantID)
    (fun hw _ hs hv _ hu => tenant_of_writing hw hs hv hu) hs

/-! ## The report and the item -/

/-- What was read by key is there in every later view, as a later version. -/
theorem later_of_history (h : Reachable C (.init d₀) w) (hs : w.sessions[i]? = some s)
    {d : Database} (hd : d ∈ history d₀ w.log) {k : RowId} {v : Version} (hv : d.get k = some v) :
    ∃ v', (s.view w.db).get k = some v' ∧ v.Kept v' := by
  obtain ⟨v₁, hv₁, hk₁⟩ := kept_respected.history h d hd k v hv
  obtain ⟨v₂, hv₂, hk₂⟩ := kept_respected.relates h hs k v₁ hv₁
  exact ⟨v₂, hv₂, hk₁.trans hk₂⟩

/-- A report there is a permit for is in the tenant. -/
theorem report_of_permit (h : Reachable C (.init d₀) w) (hs : w.sessions[i]? = some s)
    {t : Txn server} (ht : s.txn = some t) (hf : t.failed = false) {actor : Actor} {e : Endpoint}
    (hcall : s.call = .tenant actor e) {k : UUID} (hp : Permit actor s.trace k e) :
    ∃ r, (s.view w.db).reports.find k = some r ∧ r.tenantID = actor.tenantID := by
  have hseen : DraftSeen actor s.trace k →
      ∃ r, (s.view w.db).reports.find k = some r ∧ r.tenantID = actor.tenantID := by
    rintro ⟨x, hx, _, _⟩
    obtain ⟨_, htx, _, d, hd, hfind⟩ := read_report h hs hx
    obtain ⟨v, hv, hk⟩ := later_of_history h hs hd (get_report.mpr hfind)
    cases v with
    | report r => exact ⟨r, get_report.mp hv, hk.tenantID.trans htx⟩
    | _ => exact hk.elim
  cases hp with
  | edit he hd => exact hseen hd
  | delete he hd => exact hseen hd
  | copy hcr =>
    obtain ⟨p, x, hmem, rfl, _⟩ := hcr
    obtain ⟨hheld, _⟩ := createdHeld h hs actor _ t p x hcall ht hf hmem
    obtain ⟨v, hv, hk, hget⟩ := Session.get_view_of_holds hheld
    cases v with
    | report r =>
      obtain ⟨actor', e', hcall', hr⟩ := tenant_of_writes h hs _ hv r.tenantID rfl
      cases hcall.symm.trans hcall'
      exact ⟨r, get_report.mp (hget w.db), hr⟩
    | _ => cases hk

/-- A row that is written has its parent. -/
theorem parent_of_writing (h : Reachable C (.init d₀) w) (hs : w.sessions[i]? = some s)
    (hb : Belongs (s.view w.db)) {q : Stmt} {t : Txn server} {v : Version}
    (hv : Writing w.db (w.others i) s q t v) {pk : RowId} (hpk : v.parent = some pk) :
    ∃ p, (s.view w.db).get pk = some p ∧ p.Agrees v := by
  cases v with
  | item x =>
    cases hpk
    obtain ⟨actor, e, snap, o, hcall, hc⟩ := item_change h hs hv
    obtain ⟨r, hr, ht⟩ := report_of_permit h hs hv.txn hv.sound hcall hc.permit
    exact ⟨.report r, get_report.mpr hr, r, rfl, ht.trans hc.tenantID.symm⟩
  | attachment a =>
    cases hpk
    obtain ⟨snap, o, hw⟩ := hv.writes
    have hw : AttachmentWrite snap (s.view w.db) t.clock o q a := attachment_writes hw
    have hold : ∀ x ∈ (s.view w.db).attachments.rows, x.itemID = a.itemID →
        x.reportID = a.reportID → x.tenantID = a.tenantID →
        ∃ p, (s.view w.db).get (.item a.itemID) = some p ∧ p.Agrees (.attachment a) := by
      intro x hx hi hr ht
      obtain ⟨p, hp, y, hy, hyr, hyt⟩ := hb _ _ ((attachmentRows.mem_rows _ _).mp hx) _ rfl
      exact ⟨p, hi ▸ hp, y, hy, hyr.trans hr, hyt.trans ht⟩
    have hprep : Prepared s.trace q := prepared h hs hv
    cases hw with
    | create ha =>
      obtain ⟨x, hx⟩ := hprep
      obtain ⟨d, hd, c, o', hread⟩ := h.read_committed hs rfl hx
      obtain ⟨hmem, hid⟩ := itemRows.mem_of_first (Except.ok.inj hread)
      simp only [itemOf, Bool.and_eq_true, decide_eq_true_eq] at hid
      obtain ⟨v, hv, hk⟩ := later_of_history h hs hd ((itemRows.mem_rows _ _).mp hmem)
      obtain ⟨_, har, hat, hai, _⟩ := attachmentRow_ok ha
      cases v with
      | item y =>
        refine ⟨.item y, ?_, y, rfl, ?_, ?_⟩
        · rw [hai, ← hid.2]
          exact hv
        · rw [hk.reportID, har, hid.1.1.2]
        · rw [hk.tenantID, hat, hid.1.1.1]
      | _ => exact hk.elim
    | softDelete hx hid => exact hold _ hx rfl rfl rfl
    | softDeleteOfItem hx hid => exact hold _ hx rfl rfl rfl
    | softDeleteAll hx hid => exact hold _ hx rfl rfl rfl
  | _ => cases hpk

/-- **Every session sees every row with its parent.** -/
theorem belongs_view (h₀ : Belongs d₀) (h : Reachable C (.init d₀) w) :
    Belongs w.db ∧ ∀ (i : Nat) (s : Session server), w.sessions[i]? = some s →
      Belongs (s.view w.db) :=
  Reference.view ⟨Version.parent, Version.Agrees, fun hag hk => hag.kept hk⟩ h₀
    (fun hw hs hb hv _ hpk => parent_of_writing hw hs hb hv hpk) h

/-! ## The owner -/

/-- Every report has its owner: the foreign key on `user_id`. -/
def Owned (d : Database) : Prop := ∀ r ∈ d.reports.rows, (d.users.find r.userID).isSome = true

/-- The owner of a report. -/
def Version.owner : Version → Option RowId
  | .report r => some (.user r.userID)
  | _ => none

/-- A report that is written has its owner. -/
theorem owner_of_write {q : Stmt} {snap cur : Database} {clock o : Oracle} {r : ExpenseReport}
    (h : ReportWrite snap cur clock o q r) (howned : Owned cur) : (cur.users.find r.userID).isSome = true := by
  -- A row that is changed keeps its owner.
  have hold : ∀ x ∈ cur.reports.rows, x.userID = r.userID → (cur.users.find r.userID).isSome = true := by
    intro x hx huser
    rw [← huser]
    exact howned x hx
  cases h with
  | create hr =>
    obtain ⟨_, _, hr⟩ := Except.bind_eq_ok.mp hr
    obtain ⟨_, hchecked, hr⟩ := Except.bind_eq_ok.mp hr
    obtain ⟨_, _, hr⟩ := Except.bind_eq_ok.mp hr
    obtain ⟨_, huser, hr⟩ := Except.bind_eq_ok.mp hr
    obtain ⟨_, _, hr⟩ := Except.bind_eq_ok.mp hr
    cases hr
    obtain ⟨_, rfl⟩ := checkReport_eq_ok.mp hchecked
    exact references_eq_ok.mp huser
  | edit hx _ _ hs =>
    obtain ⟨_, _, rfl⟩ := setReport_ok hs
    exact hold _ hx rfl
  | status hx _ _ hs =>
    obtain ⟨_, _, _, _, rfl⟩ := setReportStatus_ok hs
    exact hold _ hx rfl
  | softDelete hx _ => exact hold _ hx rfl
  | total hx _ _ hs =>
    refine hold _ hx ?_
    rw [setReportTotalAmount_ok hs]

/-- **The foreign key holds**, in every view of every session. -/
theorem owned_view (h₀ : Owned d₀) (h : Reachable C (.init d₀) w) :
    Owned w.db ∧ ∀ (i : Nat) (s : Session server), w.sessions[i]? = some s → Owned (s.view w.db) := by
  have hiff : ∀ d, Owned d ↔ (∀ k v, d.get k = some v → ∀ pk, Version.owner v = some pk →
      ∃ p, d.get pk = some p ∧ True) := by
    intro d
    constructor
    · intro howned k v hv pk hpk
      cases v with
      | report r =>
        cases hpk
        obtain rfl := Database.id_of_get hv
        obtain ⟨u, hu⟩ := Option.isSome_iff_exists.mp (howned r ((reportRows.mem_rows _ _).mpr hv))
        exact ⟨.user u, get_user.mpr hu, trivial⟩
      | _ => cases hpk
    · intro hrefers r hr
      obtain ⟨p, hp, _⟩ := hrefers _ _ ((reportRows.mem_rows _ _).mp hr) _ rfl
      have hid := Database.id_of_get hp
      cases p with
      | user u => exact Option.isSome_iff_exists.mpr ⟨u, get_user.mp hp⟩
      | _ => cases hid
  have hwriting : ∀ {w : World server} {i s q t v}, Reachable C (.init d₀) w → w.sessions[i]? = some s →
      Reference.Holds ⟨Version.owner, fun _ _ => True, fun _ _ => trivial⟩ (s.view w.db) →
      Writing w.db (w.others i) s q t v → ∀ pk, Version.owner v = some pk →
        ∃ p, (s.view w.db).get pk = some p ∧ True := by
    intro w i s q t v _ _ hb hv pk hpk
    cases v with
    | report r =>
      cases hpk
      obtain ⟨snap, o, hwrites⟩ := hv.writes
      obtain ⟨u, hu⟩ := Option.isSome_iff_exists.mp (owner_of_write (report_writes hwrites) ((hiff _).mpr hb))
      exact ⟨.user u, get_user.mpr hu, trivial⟩
    | _ => cases hpk
  obtain ⟨hdb, hview⟩ := Reference.view ⟨Version.owner, fun _ _ => True, fun _ _ => trivial⟩
    ((hiff d₀).mp h₀) hwriting h
  exact ⟨(hiff _).mpr hdb, fun i s hs => (hiff _).mpr (hview i s hs)⟩

end

theorem Sample.belongs : Belongs Sample.database := by
  intro k v hv pk hpk
  cases v with
  | item x =>
    cases hpk
    obtain rfl := Database.id_of_get hv
    rw [List.mem_singleton.mp ((itemRows.mem_rows _ _).mpr hv)]
    exact ⟨.report Sample.report, rfl, Sample.report, rfl, rfl⟩
  | attachment a =>
    obtain rfl := Database.id_of_get hv
    exact absurd ((attachmentRows.mem_rows _ _).mpr hv) List.not_mem_nil
  | _ => cases hpk

end ExpenseSaas
