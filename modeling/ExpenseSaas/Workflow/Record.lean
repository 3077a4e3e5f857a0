import ExpenseSaas.Runs.Schedules

/-!
# The record of a report

The status of a report and its eleven audit columns tell one story: who
submitted it, who approved or rejected it, who paid it, and that nobody did two
of these to a report of their own. `UpdateReportStatus` writes all of these
columns back from an entity that was read earlier, so the record is kept only
because a stale entity never gets through: the row written over is the row that
was read (`read_again`).

`RecordStep` is what one transaction may do to a report. It is the same relation
between the committed row and an uncommitted version of it, so every session
keeps it until it commits.
-/

namespace ExpenseSaas

open ReadCommitted Sql

namespace ExpenseReport

variable (r : ExpenseReport)

def Submitted : Prop := r.submittedBy = some r.userID ∧ r.submittedAt.isSome

def Unsubmitted : Prop := r.submittedBy = none ∧ r.submittedAt = none

/-- Approved, and not by the owner. -/
def Approved : Prop := (∃ u, r.approvedBy = some u ∧ u ≠ r.userID) ∧ r.approvedAt.isSome

def Unapproved : Prop := r.approvedBy = none ∧ r.approvedAt = none ∧ r.approvalComment = none

/-- Rejected, not by the owner, and for a reason that is not blank. -/
def Rejected : Prop := (∃ u, r.rejectedBy = some u ∧ u ≠ r.userID) ∧ r.rejectedAt.isSome ∧
  ∃ reason, r.rejectionReason = some reason ∧ ∃ c ∈ reason.toList, isSpace c = false

def Unrejected : Prop := r.rejectedBy = none ∧ r.rejectedAt = none ∧ r.rejectionReason = none

/-- Paid, and not by the owner. -/
def Paid : Prop := (∃ u, r.paidBy = some u ∧ u ≠ r.userID) ∧ r.paidAt.isSome

def Unpaid : Prop := r.paidBy = none ∧ r.paidAt = none

/-- The audit columns tell the story of the status. -/
def RecordOk : Prop := match r.status with
  | .draft => r.Unsubmitted ∧ r.Unapproved ∧ r.Unrejected ∧ r.Unpaid
  | .submitted => r.Submitted ∧ r.Unapproved ∧ r.Unrejected ∧ r.Unpaid
  | .approved => r.Submitted ∧ r.Approved ∧ r.Unrejected ∧ r.Unpaid
  | .rejected => r.Submitted ∧ r.Unapproved ∧ r.Rejected ∧ r.Unpaid
  | .paid => r.Submitted ∧ r.Approved ∧ r.Unrejected ∧ r.Paid

/-- The texts of the record are such as their columns can hold. -/
def TextsFit : Prop := varcharNull 1000 r.approvalComment = .ok r.approvalComment ∧
  varcharNull 1000 r.rejectionReason = .ok r.rejectionReason

end ExpenseReport

/-- The steps of the workflow. -/
inductive StatusStep : ReportStatus → ReportStatus → Prop where
  | stay (s) : StatusStep s s
  | submit : StatusStep .draft .submitted
  | approve : StatusStep .submitted .approved
  | reject : StatusStep .submitted .rejected
  | pay : StatusStep .approved .paid

/-- What `old` says, `new` says too. -/
def Recorded {α : Type} (old new : Option α) : Prop := ∀ a, old = some a → new = some a

/-- No audit column of `r` that is set is changed in `r'`. -/
structure AuditKept (r r' : ExpenseReport) : Prop where
  submittedBy : Recorded r.submittedBy r'.submittedBy
  submittedAt : Recorded r.submittedAt r'.submittedAt
  approvedBy : Recorded r.approvedBy r'.approvedBy
  approvedAt : Recorded r.approvedAt r'.approvedAt
  approvalComment : Recorded r.approvalComment r'.approvalComment
  rejectedBy : Recorded r.rejectedBy r'.rejectedBy
  rejectedAt : Recorded r.rejectedAt r'.rejectedAt
  rejectionReason : Recorded r.rejectionReason r'.rejectionReason
  paidBy : Recorded r.paidBy r'.paidBy
  paidAt : Recorded r.paidAt r'.paidAt

/-- A record that is in order, and can be written back as it is. -/
def Sound (r : ExpenseReport) : Prop := r.RecordOk ∧ r.TextsFit

/-- One step of the workflow, on the record as a whole. -/
structure RecordStep (r r' : ExpenseReport) : Prop where
  sound : Sound r'
  status : StatusStep r.status r'.status
  audit : AuditKept r r'

/-- The record of `r'` is that of `r`. -/
structure SameRecord (r r' : ExpenseReport) : Prop where
  userID : r'.userID = r.userID
  status : r'.status = r.status
  submittedBy : r'.submittedBy = r.submittedBy
  submittedAt : r'.submittedAt = r.submittedAt
  approvedBy : r'.approvedBy = r.approvedBy
  approvedAt : r'.approvedAt = r.approvedAt
  approvalComment : r'.approvalComment = r.approvalComment
  rejectedBy : r'.rejectedBy = r.rejectedBy
  rejectedAt : r'.rejectedAt = r.rejectedAt
  rejectionReason : r'.rejectionReason = r.rejectionReason
  paidBy : r'.paidBy = r.paidBy
  paidAt : r'.paidAt = r.paidAt

section

variable {r r' r'' : ExpenseReport}

theorem SameRecord.sound (h : SameRecord r r') (hr : Sound r) : Sound r' := by
  obtain ⟨hrec, hfit⟩ := hr
  refine ⟨?_, ?_⟩
  · simpa only [ExpenseReport.RecordOk, ExpenseReport.Submitted, ExpenseReport.Unsubmitted,
      ExpenseReport.Approved, ExpenseReport.Unapproved, ExpenseReport.Rejected,
      ExpenseReport.Unrejected, ExpenseReport.Paid, ExpenseReport.Unpaid, h.userID, h.status,
      h.submittedBy, h.submittedAt, h.approvedBy, h.approvedAt, h.approvalComment, h.rejectedBy,
      h.rejectedAt, h.rejectionReason, h.paidBy, h.paidAt] using hrec
  · simpa only [ExpenseReport.TextsFit, h.approvalComment, h.rejectionReason] using hfit

theorem AuditKept.refl : AuditKept r r := by
  constructor <;> exact fun _ h => h

theorem RecordStep.refl (h : Sound r) : RecordStep r r := ⟨h, .stay _, .refl⟩

theorem RecordStep.trans_same (h : RecordStep r r') (h' : SameRecord r' r'') : RecordStep r r'' where
  sound := h'.sound h.sound
  status := h'.status ▸ h.status
  audit :=
    { submittedBy := fun a ha => h'.submittedBy.trans (h.audit.submittedBy a ha)
      submittedAt := fun a ha => h'.submittedAt.trans (h.audit.submittedAt a ha)
      approvedBy := fun a ha => h'.approvedBy.trans (h.audit.approvedBy a ha)
      approvedAt := fun a ha => h'.approvedAt.trans (h.audit.approvedAt a ha)
      approvalComment := fun a ha => h'.approvalComment.trans (h.audit.approvalComment a ha)
      rejectedBy := fun a ha => h'.rejectedBy.trans (h.audit.rejectedBy a ha)
      rejectedAt := fun a ha => h'.rejectedAt.trans (h.audit.rejectedAt a ha)
      rejectionReason := fun a ha => h'.rejectionReason.trans (h.audit.rejectionReason a ha)
      paidBy := fun a ha => h'.paidBy.trans (h.audit.paidBy a ha)
      paidAt := fun a ha => h'.paidAt.trans (h.audit.paidAt a ha) }

theorem recorded_of_none {α : Type} {old new : Option α} (h : old = none) : Recorded old new := by
  intro a ha
  rw [h] at ha
  cases ha

/-- A report as `CreateReport` inserts it has an empty record. -/
theorem sound_of_create {p : Sql.CreateReportParams} {cur : Database} {clock o : Oracle}
    (h : reportRow p cur clock o = .ok r) : Sound r := by
  obtain ⟨_, _, rfl⟩ := reportRow_ok h
  exact ⟨⟨⟨rfl, rfl⟩, ⟨rfl, rfl, rfl⟩, ⟨rfl, rfl, rfl⟩, ⟨rfl, rfl⟩⟩, rfl, rfl⟩

theorem draft_of_create {p : Sql.CreateReportParams} {cur : Database} {clock o : Oracle}
    (h : reportRow p cur clock o = .ok r) : r.status = .draft := by
  obtain ⟨_, _, rfl⟩ := reportRow_ok h
  rfl

end

/-! ## Writing a transition back -/

section

variable {x r₁ r : ExpenseReport} {snap cur : Database} {clock : Oracle} {now : Timestamp}
  {u : UUID}

theorem text_ok {s s' : String} (h : text s = .ok s') : s' = s := by
  unfold text at h
  split at h
  · cases h
  · exact (Except.ok.inj h).symm

/-- A text that is not too long is stored as it is. -/
theorem varchar_short {n : Nat} {s s' : String} (hn : s.toList.length ≤ n)
    (h : varchar n s = .ok s') : s' = s := by
  obtain ⟨s₁, h₁, h₂⟩ := Except.bind_eq_ok.mp h
  obtain rfl := text_ok h₁
  rw [if_pos hn] at h₂
  exact (Except.ok.inj h₂).symm

theorem text_of_varchar {n : Nat} {s s' : String} (h : varchar n s = .ok s') : text s = .ok s := by
  obtain ⟨s₁, h₁, _⟩ := Except.bind_eq_ok.mp h
  obtain rfl := text_ok h₁
  exact h₁

/-- What a column stores, it stores again as it is. -/
theorem varchar_again {n : Nat} {s s' : String} (h : varchar n s = .ok s') :
    varchar n s' = .ok s' := by
  have htext := text_of_varchar h
  obtain ⟨s₁, h₁, h₂⟩ := Except.bind_eq_ok.mp h
  obtain rfl := text_ok h₁
  split at h₂
  · rename_i hn
    cases h₂
    exact Except.bind_eq_ok.mpr ⟨s', htext, if_pos hn⟩
  · rename_i hn
    split at h₂
    · cases h₂
      -- Cutting off blanks leaves no zero byte behind.
      have hcut : text (String.ofList (s₁.toList.take n)) =
          .ok (String.ofList (s₁.toList.take n)) := by
        unfold text at htext ⊢
        split at htext
        · cases htext
        · rename_i hz
          rw [if_neg]
          simp only [Bool.not_eq_true, List.any_eq_false, String.toList_ofList] at hz ⊢
          exact fun c hc => hz c (List.mem_of_mem_take hc)
      refine Except.bind_eq_ok.mpr ⟨_, hcut, if_pos ?_⟩
      simp
    · cases h₂

theorem varcharNull_again {n : Nat} {s s' : Option String} (h : varcharNull n s = .ok s') :
    varcharNull n s' = .ok s' := by
  cases s with
  | none =>
    cases h
    rfl
  | some s =>
    unfold varcharNull at h
    cases hv : varchar n s with
    | error e => simp [hv, Except.map] at h
    | ok t =>
      simp only [hv, Except.map, Except.ok.injEq] at h
      subst h
      simp [varcharNull, varchar_again hv, Except.map]

theorem varcharNull_some {n : Nat} {s : String} {t : Option String}
    (h : varcharNull n (some s) = .ok t) : ∃ s', varchar n s = .ok s' ∧ t = some s' := by
  unfold varcharNull at h
  cases hv : varchar n s with
  | error e => simp [hv, Except.map] at h
  | ok s' =>
    simp only [hv, Except.map, Except.ok.injEq] at h
    exact ⟨s', rfl, h.symm⟩

/-- Submitting a draft in order leaves a submitted report in order. -/
theorem recordStep_submit {items : List ExpenseItem} {hasApprover : Bool} (hx : Sound x)
    (hu : x.userID = u) (h : x.submit now u items hasApprover = .ok r₁)
    (hs : setReportStatus (statusParams r₁) snap cur clock x = .ok r) : RecordStep x r := by
  obtain ⟨hst, _, _, rfl⟩ := submit_ok h
  obtain ⟨hrec, hc, hj⟩ := hx
  simp only [ExpenseReport.RecordOk, hst] at hrec
  obtain ⟨hsub, happ, hrej, hpaid⟩ := hrec
  obtain ⟨comment, reason, hcom, hreas, rfl⟩ := setReportStatus_ok hs
  obtain rfl := Except.ok.inj (hc.symm.trans hcom)
  obtain rfl := Except.ok.inj (hj.symm.trans hreas)
  refine ⟨⟨⟨⟨congrArg some hu.symm, rfl⟩, happ, hrej, hpaid⟩, hc, hj⟩, ?_, ?_⟩
  · rw [hst]
    exact .submit
  · exact { AuditKept.refl (r := x) with
      submittedBy := recorded_of_none hsub.1, submittedAt := recorded_of_none hsub.2 }

theorem recordStep_approve {comment : Option String} (hx : Sound x)
    (h : x.approve now u comment = .ok r₁)
    (hs : setReportStatus (statusParams r₁) snap cur clock x = .ok r) : RecordStep x r := by
  obtain ⟨hst, hne, rfl⟩ := approve_ok h
  obtain ⟨hrec, hc, hj⟩ := hx
  simp only [ExpenseReport.RecordOk, hst] at hrec
  obtain ⟨hsub, happ, hrej, hpaid⟩ := hrec
  obtain ⟨comment', reason, hcom, hreas, rfl⟩ := setReportStatus_ok hs
  obtain rfl := Except.ok.inj (hj.symm.trans hreas)
  refine ⟨⟨⟨hsub, ⟨⟨u, rfl, hne⟩, rfl⟩, hrej, hpaid⟩, varcharNull_again hcom, hj⟩, ?_, ?_⟩
  · rw [hst]
    exact .approve
  · exact { AuditKept.refl (r := x) with
      approvedBy := recorded_of_none happ.1, approvedAt := recorded_of_none happ.2.1
      approvalComment := recorded_of_none happ.2.2 }

theorem recordStep_reject {reason : String} (hx : Sound x) (hle : reason.toList.length ≤ 1000)
    (h : x.reject now u reason = .ok r₁)
    (hs : setReportStatus (statusParams r₁) snap cur clock x = .ok r) : RecordStep x r := by
  obtain ⟨hst, hne, hblank, rfl⟩ := reject_ok h
  obtain ⟨hrec, hc, hj⟩ := hx
  simp only [ExpenseReport.RecordOk, hst] at hrec
  obtain ⟨hsub, happ, hrej, hpaid⟩ := hrec
  obtain ⟨comment, reason', hcom, hreas, rfl⟩ := setReportStatus_ok hs
  obtain rfl := Except.ok.inj (hc.symm.trans hcom)
  obtain ⟨reason'', hvar, rfl⟩ := varcharNull_some hreas
  obtain rfl := varchar_short hle hvar
  have hchar : ∃ c ∈ reason''.toList, isSpace c = false := by
    by_contra hall
    refine hblank (trimSpace_eq_empty.mpr fun c hc => ?_)
    by_contra hsp
    exact hall ⟨c, hc, by simpa using hsp⟩
  refine ⟨⟨⟨hsub, happ, ⟨⟨u, rfl, hne⟩, rfl, _, rfl, hchar⟩, hpaid⟩, hc, hreas⟩, ?_, ?_⟩
  · rw [hst]
    exact .reject
  · exact { AuditKept.refl (r := x) with
      rejectedBy := recorded_of_none hrej.1, rejectedAt := recorded_of_none hrej.2.1
      rejectionReason := recorded_of_none hrej.2.2 }

theorem recordStep_pay (hx : Sound x) (h : x.markAsPaid now u = .ok r₁)
    (hs : setReportStatus (statusParams r₁) snap cur clock x = .ok r) : RecordStep x r := by
  obtain ⟨hst, hne, rfl⟩ := markAsPaid_ok h
  obtain ⟨hrec, hc, hj⟩ := hx
  simp only [ExpenseReport.RecordOk, hst] at hrec
  obtain ⟨hsub, happ, hrej, hpaid⟩ := hrec
  obtain ⟨comment, reason, hcom, hreas, rfl⟩ := setReportStatus_ok hs
  obtain rfl := Except.ok.inj (hc.symm.trans hcom)
  obtain rfl := Except.ok.inj (hj.symm.trans hreas)
  refine ⟨⟨⟨hsub, happ, hrej, ⟨⟨u, rfl, hne⟩, rfl⟩⟩, hc, hj⟩, ?_, ?_⟩
  · rw [hst]
    exact .pay
  · exact { AuditKept.refl (r := x) with
      paidBy := recorded_of_none hpaid.1, paidAt := recorded_of_none hpaid.2 }

/-- **A transition of a report in order, written over that very report, is a workflow step.** -/
theorem recordStep_of_transition {actor : Actor} {e : Endpoint} (hx : Sound x)
    (hT : Transition actor e x r₁)
    (hs : setReportStatus (statusParams r₁) snap cur clock x = .ok r) : RecordStep x r := by
  cases hT with
  | submit hu h => exact recordStep_submit hx hu h hs
  | approve h => exact recordStep_approve hx h hs
  | @reject k reason v hle r r' now h => exact recordStep_reject hx hle h hs
  | pay h => exact recordStep_pay hx h hs

end

/-! ## In every run -/

/-- What a transaction may have made of a report: a new draft in order, or a workflow step. -/
def RecordRel (_ : RowId) (old new : Option Version) : Prop :=
  ∀ r, new = some (.report r) → (old = none ∧ Sound r ∧ r.status = .draft) ∨
    ∃ x, old = some (.report x) ∧ (Sound x → RecordStep x r)

section

variable {C : World server → Action server → Prop} {d₀ : Database} {w : World server} {i : Nat}
  {s : Session server}

theorem recordRel_refl {k : RowId} {a : Option Version} : RecordRel k a a := by
  intro r hr
  exact Or.inr ⟨r, hr, .refl⟩

theorem RecordRel.same {k : RowId} {a : Option Version} {x r : ExpenseReport}
    (h : RecordRel k a (some (.report x))) (hs : SameRecord x r) :
    RecordRel k a (some (.report r)) := by
  intro y hy
  cases hy
  rcases h x rfl with ⟨hnone, hx, hd⟩ | ⟨z, hz, hstep⟩
  · exact Or.inl ⟨hnone, hs.sound hx, hs.status.trans hd⟩
  · exact Or.inr ⟨z, hz, fun h => (hstep h).trans_same hs⟩

/-- Every session leaves every report in order, one step from its committed version. -/
theorem records_relate (hC : ∀ w a, C w a → DistinctNow d₀ w a) (h : Reachable C (.init d₀) w)
    (hs : w.sessions[i]? = some s) : s.Relates (RecordRel) w.db := by
  refine h.relates (R := fun _ _ => RecordRel) (fun _ _ _ _ => recordRel_refl)
    (fun _ _ _ _ _ _ h => h) ?_ hs
  intro w i o s q t v hw _ hs hrel hv
  cases v with
  | report r =>
    -- The version the session had of the row it writes over.
    have hview : ∀ x, (s.view w.db).reports.find r.reportID = some x →
        RecordRel (.report r.reportID) (w.db.get (.report r.reportID))
          (some (.report x)) := by
      intro x hx
      have hk := hrel (RowId.report r.reportID)
      rwa [show server.get (s.view w.db) (.report r.reportID) = some (.report x) from
        get_report.mpr hx] at hk
    obtain ⟨actor, e, snap, o', _, hc⟩ := report_change hw hs hv
    cases hc with
    | create hnone hr =>
      intro y hy
      cases hy
      refine Or.inl ⟨?_, sound_of_create hr, draft_of_create hr⟩
      -- A row the session does not see is not committed either.
      cases hg : w.db.get (.report r.reportID) with
      | none => exact hg
      | some x =>
        obtain ⟨y, hy, _⟩ := kept_respected.relates hw hs (RowId.report r.reportID) x hg
        rw [show server.get (s.view w.db) (.report r.reportID) = none from
          get_report_none.mpr hnone] at hy
        cases hy
    | @update k params r₀ x r hr hu hd hrv hc hx hid hxv hset =>
      obtain ⟨_, _, rfl⟩ := setReport_ok hset
      exact (hview x (Table.find_of_mem hx)).same (by constructor <;> rfl)
    | @status e k v r₀ r₁ x r hver hr hrv hT hc hx hid hxv hset =>
      have hkey := hT.key
      have hxr : x.reportID = r.reportID := by
        obtain ⟨_, _, _, _, rfl⟩ := setReportStatus_ok hset
        rfl
      simp only [reportIs, Bool.and_eq_true, decide_eq_true_eq] at hid
      have hk : k = x.reportID := by
        rw [hid.1.2, hkey.1, (read_report hw hs hr).1]
      subst hk
      obtain ⟨rfl, hcom⟩ := read_again hC hw hs hv.txn hr (Table.find_of_mem hx)
        (hxv.trans hkey.2.2)
      intro y hy
      cases hy
      exact Or.inr ⟨x, get_report.mpr (hxr ▸ hcom), fun hx => recordStep_of_transition hx hT hset⟩
    | @delete e k x he hd hx hid =>
      exact (hview x (Table.find_of_mem hx)).same (by constructor <;> rfl)
    | @total e k x r hp hx ht hk hset =>
      rw [setReportTotalAmount_ok hset]
      rw [setReportTotalAmount_ok hset] at hview
      exact (hview x (Table.find_of_mem hx)).same (by constructor <;> rfl)
  | _ =>
    intro r hr
    cases hr

/-- Every committed report is in order. -/
theorem sound_of_reachable (hC : ∀ w a, C w a → DistinctNow d₀ w a)
    (h₀ : ∀ r ∈ d₀.reports.rows, Sound r) (h : Reachable C (.init d₀) w) :
    ∀ d ∈ history d₀ w.log, ∀ r ∈ d.reports.rows, Sound r := by
  refine h.history_rule (I := fun d : Database => ∀ r ∈ d.reports.rows, Sound r) h₀ ?_
  intro w i o s s' d' hw _ hs hm hI r hr
  rw [hm.publishes] at hr
  have hrel := records_relate hC hw hs (RowId.report r.reportID) r
    (get_report.mpr (Table.find_of_mem hr))
  rcases hrel with ⟨_, hsound, _⟩ | ⟨x, hx, hstep⟩
  · exact hsound
  · exact (hstep (hI x (Table.mem_of_find (get_report.mp hx)))).sound

/-- A commit takes every report one step on, and every report it adds is a draft. -/
theorem record_steps (hC : ∀ w a, C w a → DistinctNow d₀ w a)
    (h₀ : ∀ r ∈ d₀.reports.rows, Sound r) (h : Reachable C (.init d₀) w) :
    ∀ e ∈ w.log, (∀ r ∈ e.pre.reports.rows, ∃ r', e.post.reports.find r.reportID = some r' ∧
        RecordStep r r') ∧
      ∀ r ∈ e.post.reports.rows, e.pre.reports.find r.reportID = none → r.status = .draft := by
  refine h.log_rule (J := fun _ (pre post : Database) =>
    (∀ r ∈ pre.reports.rows, ∃ r', post.reports.find r.reportID = some r' ∧ RecordStep r r') ∧
      ∀ r ∈ post.reports.rows, pre.reports.find r.reportID = none → r.status = .draft)
    (fun {w i o s s' d'} hw _ hs hm => ?_)
  rw [hm.publishes]
  have hrel := records_relate hC hw hs
  refine ⟨fun r hr => ?_, fun r hr hnone => ?_⟩
  · have hget : w.db.get (.report r.reportID) = some (.report r) :=
      get_report.mpr (Table.find_of_mem hr)
    obtain ⟨v, hv, hk⟩ := kept_respected.relates hw hs (RowId.report r.reportID) _ hget
    cases v with
    | report r' =>
      refine ⟨r', get_report.mp hv, ?_⟩
      rcases hrel (RowId.report r.reportID) r' hv with ⟨hnone, _⟩ | ⟨x, hx, hstep⟩
      · exact nomatch hget.symm.trans hnone
      · cases hget.symm.trans hx
        exact hstep (sound_of_reachable hC h₀ hw w.db hw.db_mem_history r hr)
    | _ => exact hk.elim
  · rcases hrel (RowId.report r.reportID) r (get_report.mpr (Table.find_of_mem hr)) with
      ⟨_, _, hd⟩ | ⟨x, hx, _⟩
    · exact hd
    · exact nomatch (get_report_none.mpr hnone).symm.trans hx

/-- Nothing leaves `rejected` or `paid`. -/
theorem StatusStep.final {a b : ReportStatus} (h : StatusStep a b)
    (ha : a = .rejected ∨ a = .paid) : b = a := by
  cases h <;> simp_all

/--
**The workflow record.** In every run whose transactions have distinct `now()`,
every committed report tells the story of its status, and every commit takes
each report at most one step of the workflow, keeps what its audit columns say,
and leaves a rejected or paid report in its status.
-/
theorem record_of_distinctNow (h₀ : ∀ r ∈ d₀.reports.rows, Sound r)
    (h : Reachable (DistinctNow d₀) (.init d₀) w) :
    (∀ r ∈ w.db.reports.rows, r.RecordOk) ∧
    ∀ e ∈ w.log,
      (∀ r ∈ e.pre.reports.rows, ∃ r', e.post.reports.find r.reportID = some r' ∧
        StatusStep r.status r'.status ∧ AuditKept r r' ∧
        (r.status = .rejected ∨ r.status = .paid → r'.status = r.status)) ∧
      ∀ r ∈ e.post.reports.rows, e.pre.reports.find r.reportID = none → r.status = .draft := by
  have hC : ∀ w a, DistinctNow d₀ w a → DistinctNow d₀ w a := fun _ _ h => h
  refine ⟨fun r hr => (sound_of_reachable hC h₀ h w.db h.db_mem_history r hr).1, fun e he => ?_⟩
  obtain ⟨hold, hnew⟩ := record_steps hC h₀ h e he
  refine ⟨fun r hr => ?_, hnew⟩
  obtain ⟨r', hr', hstep⟩ := hold r hr
  exact ⟨r', hr', hstep.status, hstep.audit, hstep.status.final⟩

theorem Sample.sound : ∀ r ∈ Sample.database.reports.rows, Sound r := by
  intro r hr
  rw [List.mem_singleton.mp hr]
  exact ⟨⟨⟨rfl, rfl⟩, ⟨rfl, rfl, rfl⟩, ⟨rfl, rfl, rfl⟩, ⟨rfl, rfl⟩⟩, rfl, rfl⟩

/-- The owner submits, and then the approver approves what was submitted. -/
def submitAndApprove : List (Action server) :=
  [.start (.tenant Sample.owner (.submitReport 1 5))] ++ turns 0 15 100 ++
    [.start (.tenant Sample.approver (.approveReport 1 none 100))] ++ turns 1 11 200

/-- A run that submits and approves has kept the record. -/
theorem record_of_submitAndApprove : ∃ w : World server,
    Reachable (DistinctNow Sample.database) (.init Sample.database) w ∧
      w.db.reports.rows.map ExpenseReport.status = [.approved] ∧
      ∀ r ∈ w.db.reports.rows, r.RecordOk := by
  have hrun : ((World.init Sample.database : World server).run (uniqueTimes Sample.database)
      submitAndApprove).any
      (fun w => w.db.reports.rows.map ExpenseReport.status = [.approved]) = true := by
    decide +kernel
  obtain ⟨w, hw, hstatus⟩ := exists_of_run distinctNow_of_uniqueTimes hrun
  exact ⟨w, hw, by simpa using hstatus, (record_of_distinctNow Sample.sound hw).1⟩

end

end ExpenseSaas
