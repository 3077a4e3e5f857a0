import ExpenseSaas.Contract.Shape
import ExpenseSaas.Workflow.Freeze
import ExpenseSaas.Workflow.Parents

/-!
# Who may change what

Four layers decide who may change a report: the roles of the route, the
authorizer, the transitions of the entity and the scope of the statement.
`Attributed` is what they come to for one commit. The owner changes the report,
what belongs to it, and hands it in; somebody else of the same tenant decides
and pays, in the role the route asks for.

None of it depends on the order of steps. A check may be outdated by the time of
the commit, but who owns a report and which tenant it is in never changes.
-/

namespace ExpenseSaas

open ReadCommitted Sql

/-- The call is made by the owner of the report, in its tenant. -/
def OwnedBy (call : Call) (r : ExpenseReport) : Prop :=
  ∃ actor e, call = .tenant actor e ∧ actor.userID = r.userID ∧ actor.tenantID = r.tenantID

/-- The call is made in this role by somebody else of the report's tenant. -/
def DecidedBy (role : Role) (call : Call) (r : ExpenseReport) : Prop :=
  ∃ actor e, call = .tenant actor e ∧ actor.role = role ∧ actor.userID ≠ r.userID ∧
    actor.tenantID = r.tenantID

/-- What the owner states of a report, and whether it is deleted. -/
structure SameText (r r' : ExpenseReport) : Prop where
  title : r'.title = r.title
  periodStart : r'.periodStart = r.periodStart
  periodEnd : r'.periodEnd = r.periodEnd
  deletedAt : r'.deletedAt = r.deletedAt

/-- The call may bring the report into the status it is in. -/
def BroughtBy (call : Call) (r : ExpenseReport) : Prop := match r.status with
  | .draft => True
  | .submitted => OwnedBy call r
  | .approved => DecidedBy .approver call r
  | .rejected => DecidedBy .approver call r
  | .paid => DecidedBy .accounting call r

/-- **Whose work a commit is.** -/
structure Attributed (call : Call) (d d' : Database) : Prop where
  stays : ∀ k : RowId, (d.get k).isSome → (d'.get k).isSome
  owner : ∀ k r r', d.reports.find k = some r → d'.reports.find k = some r' →
    r'.userID = r.userID ∧ r'.tenantID = r.tenantID
  report : ∀ k r', d'.reports.find k = some r' →
    OwnedBy call r' ∨ ∃ r, d.reports.find k = some r ∧ SameText r r'
  item : ∀ k x, d'.items.find k = some x →
    d.items.find k = some x ∨ ∃ r, d'.reports.find x.reportID = some r ∧ OwnedBy call r
  attachment : ∀ k x, d'.attachments.find k = some x →
    d.attachments.find k = some x ∨ ∃ r, d'.reports.find x.reportID = some r ∧ OwnedBy call r
  submitted : ∀ k r r', d.reports.find k = some r → d'.reports.find k = some r' →
    r.status = .draft → r'.status = .submitted → OwnedBy call r
  decided : ∀ k r r', d.reports.find k = some r → d'.reports.find k = some r' →
    r.status = .submitted → r'.status = .approved ∨ r'.status = .rejected →
    DecidedBy .approver call r
  paid : ∀ k r r', d.reports.find k = some r → d'.reports.find k = some r' →
    r.status = .approved → r'.status = .paid → DecidedBy .accounting call r

/-- No row of a report, an item or an attachment is changed. -/
structure Untouched (d d' : Database) : Prop where
  reports : ∀ k, d'.reports.find k = d.reports.find k
  items : ∀ k, d'.items.find k = d.items.find k
  attachments : ∀ k, d'.attachments.find k = d.attachments.find k

/-- The call is answered, and a request with an error status. -/
def Refused (s : Session server) : Prop :=
  ∃ a, s.prog = .ret a ∧ ∀ actor e, s.call = .tenant actor e → 400 ≤ statusOf e.responder a

section

variable {call : Call} {r r' : ExpenseReport} {role : Role}

theorem OwnedBy.congr (h : OwnedBy call r) (hu : r'.userID = r.userID)
    (ht : r'.tenantID = r.tenantID) : OwnedBy call r' := by
  obtain ⟨actor, e, hc, hu', ht'⟩ := h
  exact ⟨actor, e, hc, hu'.trans hu.symm, ht'.trans ht.symm⟩

theorem DecidedBy.congr (h : DecidedBy role call r) (hu : r'.userID = r.userID)
    (ht : r'.tenantID = r.tenantID) : DecidedBy role call r' := by
  obtain ⟨actor, e, hc, hr, hu', ht'⟩ := h
  exact ⟨actor, e, hc, hr, hu ▸ hu', ht'.trans ht.symm⟩

theorem BroughtBy.congr (h : BroughtBy call r) (hs : r'.status = r.status)
    (hu : r'.userID = r.userID) (ht : r'.tenantID = r.tenantID) : BroughtBy call r' := by
  unfold BroughtBy at h ⊢
  rw [hs]
  split at h
  · trivial
  · exact OwnedBy.congr h hu ht
  · exact DecidedBy.congr h hu ht
  · exact DecidedBy.congr h hu ht
  · exact DecidedBy.congr h hu ht

end

/-! ## What a session makes of a report -/

/-- What a session has made of the committed row `old` of a report, by right. -/
structure ReportAttributed (call : Call) (old : Option Version) (r' : ExpenseReport) : Prop where
  text : OwnedBy call r' ∨ ∃ r, old = some (.report r) ∧ SameText r r'
  status : BroughtBy call r' ∨ ∃ r, old = some (.report r) ∧ r'.status = r.status

/-- What a session may make of a committed report. -/
def ReportByRight (call : Call) (_ : Trace) (_ : RowId) (old new : Option Version) : Prop :=
  ∀ r', new = some (.report r') → ReportAttributed call old r'

section

variable {call : Call} {old : Option Version} {x r : ExpenseReport}

theorem reportByRight_refl {tr : Trace} {k : RowId} {v : Option Version} :
    ReportByRight call tr k v v := by
  rintro r rfl
  exact ⟨Or.inr ⟨r, rfl, rfl, rfl, rfl, rfl⟩, Or.inr ⟨r, rfl, rfl⟩⟩

/-- The text is that of `x`. -/
theorem ReportAttributed.text_of_same (h : ReportAttributed call old x)
    (hu : r.userID = x.userID) (ht : r.tenantID = x.tenantID) (hs : SameText x r) :
    OwnedBy call r ∨ ∃ y, old = some (.report y) ∧ SameText y r := by
  refine h.text.imp (fun ho => ho.congr hu ht) ?_
  rintro ⟨y, hy, hsame⟩
  exact ⟨y, hy, hs.title.trans hsame.title, hs.periodStart.trans hsame.periodStart,
    hs.periodEnd.trans hsame.periodEnd, hs.deletedAt.trans hsame.deletedAt⟩

/-- The status is that of `x`. -/
theorem ReportAttributed.status_of_same (h : ReportAttributed call old x)
    (hu : r.userID = x.userID) (ht : r.tenantID = x.tenantID) (hs : r.status = x.status) :
    BroughtBy call r ∨ ∃ y, old = some (.report y) ∧ r.status = y.status := by
  refine h.status.imp (fun hb => hb.congr hs hu ht) ?_
  rintro ⟨y, hy, hsame⟩
  exact ⟨y, hy, hs.trans hsame⟩

end

section

variable {C : World server → Action server → Prop} {d₀ : Database} {w : World server} {i : Nat}
  {s : Session server} {k : UUID}

/-- What was read is there still, as a later version. -/
theorem later_of_read (h : Reachable C (.init d₀) w) (hs : w.sessions[i]? = some s) {actor : Actor}
    {r₀ : ExpenseReport} (hr : ReadReport actor s.trace k r₀) :
    ∃ r, (s.view w.db).reports.find k = some r ∧ ReportKept r₀ r ∧ r.tenantID = actor.tenantID := by
  obtain ⟨_, ht, _, d, hd, hfind⟩ := read_report h hs hr
  obtain ⟨v, hv, hk⟩ := later_of_history h hs hd (get_report.mpr hfind)
  cases v with
  | report r => exact ⟨r, get_report.mp hv, hk, hk.tenantID.trans ht⟩
  | _ => exact hk.elim

/-- A report the actor has seen as a draft of their own is their own. -/
theorem owned_of_draftSeen (h : Reachable C (.init d₀) w) (hs : w.sessions[i]? = some s)
    {actor : Actor} {e : Endpoint} (hcall : s.call = .tenant actor e)
    (hd : DraftSeen actor s.trace k) {r : ExpenseReport}
    (hr : (s.view w.db).reports.find k = some r) : OwnedBy s.call r := by
  obtain ⟨r₀, hr₀, hu, _⟩ := hd
  obtain ⟨x, hx, hk, ht⟩ := later_of_read h hs hr₀
  cases hr.symm.trans hx
  exact ⟨actor, e, hcall, (hk.userID.trans hu).symm, ht.symm⟩

/-- Who decides on a report, and what the route asks of them. -/
theorem broughtBy_of_transition {actor : Actor} {e : Endpoint} {r₀ r₁ r : ExpenseReport}
    (hT : Transition actor e r₀ r₁) (hrole : actor.role ∈ e.roles) (hs : r.status = r₁.status)
    (hu : r.userID = r₀.userID) (ht : r.tenantID = actor.tenantID) :
    BroughtBy (.tenant actor e) r := by
  unfold BroughtBy
  rw [hs]
  cases hT with
  | submit hown h =>
    obtain ⟨_, _, _, rfl⟩ := submit_ok h
    exact ⟨actor, _, rfl, (hu.trans hown).symm, ht.symm⟩
  | approve h =>
    obtain ⟨_, hne, rfl⟩ := approve_ok h
    exact ⟨actor, _, rfl, List.mem_singleton.mp hrole, hu ▸ hne, ht.symm⟩
  | reject h =>
    obtain ⟨_, hne, _, rfl⟩ := reject_ok h
    exact ⟨actor, _, rfl, List.mem_singleton.mp hrole, hu ▸ hne, ht.symm⟩
  | pay h =>
    obtain ⟨_, hne, rfl⟩ := markAsPaid_ok h
    exact ⟨actor, _, rfl, List.mem_singleton.mp hrole, hu ▸ hne, ht.symm⟩

/-- **Every session has a right to what it makes of a report.** -/
theorem reportByRight_relates (h : Reachable C (.init d₀) w) (hs : w.sessions[i]? = some s) :
    s.Relates (ReportByRight s.call s.trace) w.db := by
  refine h.relates (R := ReportByRight) (fun _ _ _ _ => reportByRight_refl)
    (fun _ _ _ _ _ _ hr => hr) ?_ hs
  rintro w i o s q t v hw _ hs hrel hv r hr
  cases hr
  have hview : ∀ x, (s.view w.db).reports.find r.reportID = some x →
      ReportAttributed s.call (w.db.get (.report r.reportID)) x :=
    fun x hx => hrel (RowId.report r.reportID) x (get_report.mpr hx)
  obtain ⟨actor, e, snap, o', hcall, hc⟩ := report_change hw hs hv
  have hrole := role_of_writing hw hs hcall hv
  show ReportAttributed s.call (w.db.get (.report r.reportID)) r
  cases hc with
  | create hnone hr =>
    obtain ⟨_, _, rfl⟩ := reportRow_ok hr
    exact ⟨Or.inl ⟨actor, _, hcall, rfl, rfl⟩, Or.inl trivial⟩
  | @update k params r₀ x r hr hu hd hrv hcl hx hid hxv hset =>
    have hkey := (read_report hw hs hr).1
    simp only [reportIs, Bool.and_eq_true, decide_eq_true_eq] at hid
    obtain ⟨_, _, rfl⟩ := setReport_ok hset
    have hxk : x.reportID = k := hid.1.2.trans hkey
    have hown := owned_of_draftSeen hw hs hcall ⟨r₀, hr, hu, hd⟩ (hxk ▸ Table.find_of_mem hx)
    exact ⟨Or.inl (hown.congr rfl rfl),
      (hview x (Table.find_of_mem hx)).status_of_same rfl rfl rfl⟩
  | @status e k v r₀ r₁ x r hver hr hrv hT hcl hx hid hxv hset =>
    have hkey := (read_report hw hs hr).1
    simp only [reportIs, Bool.and_eq_true, decide_eq_true_eq] at hid
    obtain ⟨_, _, _, _, rfl⟩ := setReportStatus_ok hset
    have hxk : x.reportID = k := (hid.1.2.trans hT.key.1).trans hkey
    obtain ⟨y, hy, hk, ht⟩ := later_of_read hw hs hr
    cases (show (s.view w.db).reports.find k = some x from hxk ▸ Table.find_of_mem hx).symm.trans hy
    refine ⟨(hview x (Table.find_of_mem hx)).text_of_same rfl rfl ⟨rfl, rfl, rfl, rfl⟩, Or.inl ?_⟩
    rw [hcall]
    exact broughtBy_of_transition hT hrole rfl hk.userID ht
  | @delete e k x he hd hx hid =>
    simp only [reportIs, Bool.and_eq_true, decide_eq_true_eq] at hid
    have hown := owned_of_draftSeen hw hs hcall hd (hid.1.2 ▸ Table.find_of_mem hx)
    exact ⟨Or.inl (hown.congr rfl rfl),
      (hview x (Table.find_of_mem hx)).status_of_same rfl rfl rfl⟩
  | @total e k x r hp hx ht hk hset =>
    rw [setReportTotalAmount_ok hset] at hview ⊢
    have hrel := hview x (Table.find_of_mem hx)
    exact ⟨hrel.text_of_same rfl rfl ⟨rfl, rfl, rfl, rfl⟩, hrel.status_of_same rfl rfl rfl⟩

/-! ## What belongs to a report -/

/-- Unless the call names a version of a report, it writes reports of its actor's own. -/
theorem owned_of_writes (h : Reachable C (.init d₀) w) (hs : w.sessions[i]? = some s) :
    ∀ r, Version.report r ∈ s.writes →
      (∀ actor e, s.call = .tenant actor e → e.version = none) → OwnedBy s.call r := by
  refine h.session_rule (P := fun _ _ _ (s : Session server) => ∀ r, Version.report r ∈ s.writes →
    (∀ actor e, s.call = .tenant actor e → e.version = none) → OwnedBy s.call r) ?_ ?_ ?_ ?_ i s hs
  · intro w c _ _ r hr
    exact absurd hr List.not_mem_nil
  · intro w i o s s' d' hw _ hall hs hm r hr hnone
    rw [hm.told.call_eq] at hnone ⊢
    rcases hm.effect.mem_writes hr with hr | ⟨q, t, hv⟩
    · exact hall i s hs r hr hnone
    obtain ⟨actor, e, snap, o', hcall, hc⟩ := report_change hw hs hv
    have hversion := hnone actor e hcall
    cases hc with
    | create hnew hrow =>
      obtain ⟨_, _, rfl⟩ := reportRow_ok hrow
      exact ⟨actor, _, hcall, rfl, rfl⟩
    | update => cases hversion
    | status hver => exact nomatch hversion.symm.trans hver
    | @delete e k x he hd hx hid =>
      simp only [reportIs, Bool.and_eq_true, decide_eq_true_eq] at hid
      have hfind : (s.view w.db).reports.find k = some x := hid.1.2 ▸ Table.find_of_mem hx
      exact (owned_of_draftSeen hw hs hcall hd hfind).congr rfl rfl
    | @total e k x r hp hx ht hk hset =>
      rw [setReportTotalAmount_ok hset]
      have hfind : (s.view w.db).reports.find k = some x := hk ▸ Table.find_of_mem hx
      have hown : OwnedBy s.call x := by
        cases hp with
        | edit he hd => exact owned_of_draftSeen hw hs hcall hd hfind
        | delete he hd => exact owned_of_draftSeen hw hs hcall hd hfind
        | copy hcr =>
          -- A report the session has created is one of its own versions.
          obtain ⟨p, y, hmem, rfl, _⟩ := hcr
          obtain ⟨hheld, _⟩ := createdHeld hw hs actor _ t p y hcall hv.txn hv.sound hmem
          obtain ⟨u, hu, _, hget⟩ := Session.get_view_of_holds hheld
          cases (hget w.db).symm.trans (get_report.mpr hfind)
          exact hall i s hs x hu hnone
      exact hown.congr rfl rfl
  · intro w i s s' _ _ _ hb r hr
    rw [hb.writes] at hr
    exact absurd hr List.not_mem_nil
  · intro w i j o s s' t d' _ _ hall _ _ ht _
    exact hall j t ht

/-- Who has a permit for what belongs to a report owns the report. -/
theorem owned_of_permitted (h : Reachable C (.init d₀) w) (hs : w.sessions[i]? = some s)
    (hc : s.Committing) (hp : Permitted s.trace k s.call) :
    ∃ r, (s.view w.db).reports.find k = some r ∧ OwnedBy s.call r := by
  obtain ⟨_, t, ht, hf⟩ := hc
  generalize hcall : s.call = call at hp
  obtain @⟨actor, e, hp⟩ := hp
  obtain ⟨r, hr, _⟩ := report_of_permit h hs ht hf hcall hp
  refine ⟨r, hr, hcall ▸ ?_⟩
  cases hp with
  | edit he hd => exact owned_of_draftSeen h hs hcall hd hr
  | delete he hd => exact owned_of_draftSeen h hs hcall hd hr
  | copy hcr =>
    obtain ⟨p, y, hmem, rfl, _⟩ := hcr
    obtain ⟨hheld, _⟩ := createdHeld h hs actor _ t p y hcall ht hf hmem
    obtain ⟨u, hu, _, hget⟩ := Session.get_view_of_holds hheld
    cases (hget w.db).symm.trans (get_report.mpr hr)
    refine owned_of_writes h hs r hu fun actor' e' hcall' => ?_
    cases hcall.symm.trans hcall'
    rfl

/-! ## Every commit -/

/-- What a session commits is its own work. -/
theorem attributed_of_commit (h : Reachable C (.init d₀) w) (hs : w.sessions[i]? = some s)
    (hc : s.Committing) : Attributed s.call w.db (s.view w.db) := by
  have hkept := kept_respected.relates h hs
  have hright := reportByRight_relates h hs
  have hfrozen := frozen_relates (U := True) (Or.inl trivial) h hs
  have howner : ∀ k r r', w.db.reports.find k = some r → (s.view w.db).reports.find k = some r' →
      r'.userID = r.userID ∧ r'.tenantID = r.tenantID := by
    intro k r r' hr hr'
    obtain ⟨v, hv, hk⟩ := hkept (RowId.report k) _ (get_report.mpr hr)
    cases (get_report.mpr hr').symm.trans hv
    exact ⟨hk.userID, hk.tenantID⟩
  -- Who brought a committed report into the status it has now.
  have hstep : ∀ k r r', w.db.reports.find k = some r → (s.view w.db).reports.find k = some r' →
      r'.status ≠ r.status → BroughtBy s.call r' := by
    intro k r r' hr hr' hne
    rcases (hright (RowId.report k) r' (get_report.mpr hr')).status with hb | ⟨x, hx, hsame⟩
    · exact hb
    · cases (get_report.mpr hr).symm.trans hx
      exact absurd hsame hne
  constructor
  · intro k hk
    obtain ⟨v, hv⟩ := Option.isSome_iff_exists.mp hk
    obtain ⟨v', hv', _⟩ := hkept k v hv
    rw [show (s.view w.db).get k = some v' from hv']
    rfl
  · exact howner
  · intro k r' hr'
    refine (hright (RowId.report k) r' (get_report.mpr hr')).text.imp_right ?_
    rintro ⟨r, hr, hsame⟩
    exact ⟨r, get_report.mp hr, hsame⟩
  · intro k x hx
    have hrel := hfrozen (RowId.item k)
    rw [show server.get (s.view w.db) (.item k) = some (.item x) from get_item.mpr hx] at hrel
    rcases hrel with hold | hp
    · exact Or.inl (get_item.mp hold)
    · exact Or.inr (owned_of_permitted h hs hc hp)
  · intro k x hx
    have hrel := hfrozen (RowId.attachment k)
    rw [show server.get (s.view w.db) (.attachment k) = some (.attachment x) from
      get_attachment.mpr hx] at hrel
    rcases hrel with hold | hp
    · exact Or.inl (get_attachment.mp hold)
    · exact Or.inr (owned_of_permitted h hs hc hp)
  · intro k r r' hr hr' hs₁ hs₂
    obtain ⟨hu, ht⟩ := howner k r r' hr hr'
    have hb := hstep k r r' hr hr' (by simp [hs₁, hs₂])
    unfold BroughtBy at hb
    rw [hs₂] at hb
    exact OwnedBy.congr hb hu.symm ht.symm
  · rintro k r r' hr hr' hs₁ (hs₂ | hs₂) <;>
    · obtain ⟨hu, ht⟩ := howner k r r' hr hr'
      have hb := hstep k r r' hr hr' (by simp [hs₁, hs₂])
      unfold BroughtBy at hb
      rw [hs₂] at hb
      exact DecidedBy.congr hb hu.symm ht.symm
  · intro k r r' hr hr' hs₁ hs₂
    obtain ⟨hu, ht⟩ := howner k r r' hr hr'
    have hb := hstep k r r' hr hr' (by simp [hs₁, hs₂])
    unfold BroughtBy at hb
    rw [hs₂] at hb
    exact DecidedBy.congr hb hu.symm ht.symm

/-- The row belongs to a report. -/
def RowId.OfReport : RowId → Prop
  | .report _ => True
  | .item _ => True
  | .attachment _ => True
  | _ => False

/-- A call that is no request holds nothing that belongs to a report. -/
theorem not_holds_of_auth (h : Reachable C (.init d₀) w) (hs : w.sessions[i]? = some s)
    (hauth : ∀ actor e, s.call ≠ .tenant actor e) {key : RowId} (hk : key.OfReport) :
    ¬ s.Holds (E := server) key := by
  rintro ⟨v, hv, rfl⟩
  have htenant : ∃ u, v.tenantID = some u := by
    cases v with
    | report r => exact ⟨_, rfl⟩
    | item x => exact ⟨_, rfl⟩
    | attachment x => exact ⟨_, rfl⟩
    | _ => exact hk.elim
  obtain ⟨u, hu⟩ := htenant
  obtain ⟨actor, e, hcall, _⟩ := tenant_of_writes h hs v hv u hu
  exact hauth actor e hcall

theorem untouched_of_auth (h : Reachable C (.init d₀) w) (hs : w.sessions[i]? = some s)
    (hauth : ∀ actor e, s.call ≠ .tenant actor e) : Untouched w.db (s.view w.db) := by
  have hget : ∀ {key : RowId}, key.OfReport → (s.view w.db).get key = w.db.get key :=
    fun hk => Session.get_view_of_free (E := server) (not_holds_of_auth h hs hauth hk)
  constructor
  · intro k
    exact Option.map_injective (fun _ _ => Version.report.inj) (@hget (.report k) trivial)
  · intro k
    exact Option.map_injective (fun _ _ => Version.item.inj) (@hget (.item k) trivial)
  · intro k
    exact Option.map_injective (fun _ _ => Version.attachment.inj)
      (@hget (.attachment k) trivial)

/--
**Every change is made by somebody with a right to it, and a refused request
changes nothing.** In every run, each commit is by a session whose call
`Attributed` allows it to, and when that call is answered with an error the
commit has left every report, item and attachment as it was.
-/
theorem attributed_of_reachable (h : Reachable C (.init d₀) w) :
    ∀ f ∈ w.log, ∃ s, w.sessions[f.sess]? = some s ∧ Attributed s.call f.pre f.post ∧
      (Refused s → Untouched f.pre f.post) := by
  have hentries := h.entry_rule (J := fun (call : Call) d d' => Attributed call d d' ∧
    ((∀ actor e, call ≠ .tenant actor e) → Untouched d d')) (fun {w i o s s' d'} hw _ hs hm => by
      rw [hm.publishes]
      exact ⟨attributed_of_commit hw hs hm.committing, untouched_of_auth hw hs⟩)
  intro f hf
  obtain ⟨s, hs, hattr, hauth⟩ := hentries f hf
  refine ⟨s, hs, hattr, ?_⟩
  rintro ⟨a, hp, hstatus⟩
  by_cases hcall : ∃ actor e, s.call = .tenant actor e
  · obtain ⟨actor, e, hcall⟩ := hcall
    cases a with
    | ok p => exact absurd (show 400 ≤ 200 from hstatus actor e hcall) (by decide)
    | error err => exact absurd rfl (uncommitted_of_error h hs hcall hp f hf)
  · exact hauth fun actor e hc => hcall ⟨actor, e, hc⟩

end

/-- A report is added to, submitted and approved, each time by one who may. -/
theorem attributed_of_addSubmitApprove : ∃ w : World server,
    Reachable (fun _ _ => True) (.init Sample.database) w ∧ w.log.length = 3 ∧
      ∀ f ∈ w.log, ∃ s, w.sessions[f.sess]? = some s ∧ Attributed s.call f.pre f.post ∧
        (Refused s → Untouched f.pre f.post) := by
  have hrun : ((World.init Sample.database : World server).run (fun _ _ => true)
      Sample.addSubmitApprove).any (fun w => w.log.length = 3) = true := by
    decide +kernel
  obtain ⟨w, hw, hlen⟩ := exists_of_run (C := fun _ _ => True) (fun _ _ _ => trivial) hrun
  exact ⟨w, hw, of_decide_eq_true hlen, attributed_of_reachable hw⟩

end ExpenseSaas
