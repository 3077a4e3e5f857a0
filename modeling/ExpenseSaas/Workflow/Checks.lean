import ExpenseSaas.Runs.Schedules

/-!
# Checks and what they guard

An edit of a report's items or attachments, the deletion of a report and a
change of its title all begin with the same check: the report is a draft. What
they write afterwards is not guarded by it any more. `Frozen` is what every
session keeps all the same: whatever it changes of a report that has left draft,
it has the right to by a check it made (`Permitted`).

So everything depends on whether a check still holds at the commit. `InTime` is
the condition that no other transaction has taken the report out of draft by
then, and `draft_of_inTime` says that the report is then a draft still.
-/

namespace ExpenseSaas

open ReadCommitted Sql

/-! ## The checks -/

/-- The commit takes report `k` out of draft. -/
def LeavesDraft (k : UUID) (d d' : Database) : Prop :=
  ∃ r r', d.reports.find k = some r ∧ r.status = .draft ∧ d'.reports.find k = some r' ∧
    r'.status ≠ .draft

/-- The call edits items or attachments of report `k`, which it has seen as a draft. -/
def EditChecked (call : Call) (tr : Trace) (k : UUID) : Prop :=
  ∃ actor e, call = .tenant actor e ∧ e.edits = some k ∧ DraftSeen actor tr k

/-- The call deletes report `k`, which it has seen as a draft. -/
def DeleteChecked (call : Call) (tr : Trace) (k : UUID) : Prop :=
  ∃ actor e, call = .tenant actor e ∧ e.deletes = some k ∧ DraftSeen actor tr k

/-- The call updates report `k`, which it has seen as a draft. -/
def UpdateChecked (call : Call) (tr : Trace) (k : UUID) : Prop :=
  ∃ actor params, call = .tenant actor (.updateReport k params) ∧ DraftSeen actor tr k

/--
When a transaction that has made the check comes to commit, no other has taken
the report out of draft.
-/
def InTime (checked : Call → Trace → UUID → Prop) (w : World server) : Action server → Prop
  | .step i _ => ∀ s k, w.sessions[i]? = some s → s.Committing → checked s.call s.trace k →
      ∀ e ∈ w.log, ¬ LeavesDraft k e.pre e.post
  | _ => True

/-- Nothing has committed yet, or the step is not one of a call that edits or deletes. -/
def beforeAnyCommit (w : World server) : Action server → Bool
  | .step i _ => w.log.isEmpty || (w.sessions[i]?).all fun s => match s.call with
      | .tenant _ e => e.edits.isNone && e.deletes.isNone
      | _ => true
  | _ => true

theorem inTime_of_beforeAnyCommit {w : World server} {a : Action server}
    (h : beforeAnyCommit w a = true) : InTime EditChecked w a ∧ InTime DeleteChecked w a := by
  cases a with
  | step i o =>
    simp only [beforeAnyCommit, Bool.or_eq_true, List.isEmpty_iff, Option.all_eq_true] at h
    constructor <;> rintro s k hs - ⟨actor, e, hcall, he, _⟩ f hf
    all_goals
      rcases h with hlog | hnone
      · rw [hlog] at hf
        exact absurd hf List.not_mem_nil
      · have hn := hnone s hs
        rw [hcall] at hn
        simp [he] at hn
  | _ => exact ⟨trivial, trivial⟩

/-- The call has the right to change what belongs to report `k`. -/
inductive Permitted (tr : Trace) (k : UUID) : Call → Prop where
  | mk {actor e} : Permit actor tr k e → Permitted tr k (.tenant actor e)

section

variable {actor : Actor} {e : Endpoint} {call : Call} {tr : Trace} {k : UUID}

theorem Permit.append (h : Permit actor tr k e) (evs : Trace) : Permit actor (tr ++ evs) k e := by
  cases h with
  | edit he hd => exact .edit he (hd.append evs)
  | delete he hd => exact .delete he (hd.append evs)
  | copy hc => exact .copy (hc.append evs)

theorem Permitted.append (h : Permitted tr k call) (evs : Trace) : Permitted (tr ++ evs) k call := by
  cases h with
  | mk h => exact .mk (h.append evs)

theorem DeleteChecked.append (h : DeleteChecked call tr k) (evs : Trace) :
    DeleteChecked call (tr ++ evs) k := by
  obtain ⟨actor, e, hc, he, hd⟩ := h
  exact ⟨actor, e, hc, he, hd.append evs⟩

theorem UpdateChecked.append (h : UpdateChecked call tr k) (evs : Trace) :
    UpdateChecked call (tr ++ evs) k := by
  obtain ⟨actor, params, hc, hd⟩ := h
  exact ⟨actor, params, hc, hd.append evs⟩

end

/-! ## What a session has changed -/

/-- The header of a report: what its owner states, and the total. -/
structure SameHeader (r r' : ExpenseReport) : Prop where
  title : r'.title = r.title
  periodStart : r'.periodStart = r.periodStart
  periodEnd : r'.periodEnd = r.periodEnd
  totalAmount : r'.totalAmount = r.totalAmount

theorem SameHeader.refl {r : ExpenseReport} : SameHeader r r := ⟨rfl, rfl, rfl, rfl⟩

theorem SameHeader.trans {r r' r'' : ExpenseReport} (h : SameHeader r r') (h' : SameHeader r' r'') :
    SameHeader r r'' where
  title := h'.title.trans h.title
  periodStart := h'.periodStart.trans h.periodStart
  periodEnd := h'.periodEnd.trans h.periodEnd
  totalAmount := h'.totalAmount.trans h.totalAmount

/-- What a session may have made of the committed row `old` of a report. -/
structure ReportRel (U : Prop) (call : Call) (tr : Trace) (old : Option Version)
    (r' : ExpenseReport) : Prop where
  header : Permitted tr r'.reportID call ∨ (U ∧ UpdateChecked call tr r'.reportID) ∨
    ∀ r, old = some (.report r) → r.status = .draft ∨ SameHeader r r'
  deletion : r'.deletedAt.isSome → DeleteChecked call tr r'.reportID ∨
    ∃ r, old = some (.report r) ∧ r.deletedAt.isSome
  status : ∀ actor e, call = .tenant actor e → e.version = none →
    ∀ r, old = some (.report r) → r'.status = r.status

/--
What a session may have made of a committed row. `U` says that an update counts
as permitted by its check; otherwise the row it has updated is a draft.
-/
def Frozen (U : Prop) (call : Call) (tr : Trace) (_ : RowId) (old new : Option Version) : Prop :=
  match new with
  | some (.report r') => ReportRel U call tr old r'
  | some (.item x) => old = some (.item x) ∨ Permitted tr x.reportID call
  | some (.attachment x) => old = some (.attachment x) ∨ Permitted tr x.reportID call
  | _ => True

section

variable {U : Prop} {call : Call} {tr : Trace} {old : Option Version} {x r : ExpenseReport}

theorem ReportRel.refl : ReportRel U call tr (some (.report r)) r where
  header := Or.inr (Or.inr fun y hy => by cases hy; exact Or.inr .refl)
  deletion hd := Or.inr ⟨r, rfl, hd⟩
  status _ _ _ _ y hy := by cases hy; rfl

theorem ReportRel.append (h : ReportRel U call tr old r) (evs : Trace) :
    ReportRel U call (tr ++ evs) old r where
  header := h.header.imp (fun hp => hp.append evs) (Or.imp_left (And.imp_right fun hu => hu.append evs))
  deletion hd := (h.deletion hd).imp_left fun hc => hc.append evs
  status := h.status

/-- The header, when `r` has that of `x`. -/
theorem ReportRel.header_of_same (h : ReportRel U call tr old x) (hk : r.reportID = x.reportID)
    (hs : SameHeader x r) : Permitted tr r.reportID call ∨ (U ∧ UpdateChecked call tr r.reportID) ∨
      ∀ y, old = some (.report y) → y.status = .draft ∨ SameHeader y r := by
  rw [hk]
  refine h.header.imp_right (Or.imp_right fun hd y hy => ?_)
  exact (hd y hy).imp_right fun hy => hy.trans hs

theorem ReportRel.deletion_of_same (h : ReportRel U call tr old x) (hk : r.reportID = x.reportID)
    (hs : r.deletedAt = x.deletedAt) (hd : r.deletedAt.isSome) :
    DeleteChecked call tr r.reportID ∨ ∃ y, old = some (.report y) ∧ y.deletedAt.isSome := by
  rw [hk]
  exact h.deletion (hs ▸ hd)

theorem ReportRel.status_of_same (h : ReportRel U call tr old x) (hs : r.status = x.status)
    (actor : Actor) (e : Endpoint) (hc : call = .tenant actor e) (hv : e.version = none)
    (y : ExpenseReport) (hy : old = some (.report y)) : r.status = y.status :=
  hs.trans (h.status actor e hc hv y hy)

theorem frozen_refl {k : RowId} {v : Option Version} : Frozen U call tr k v v := by
  cases v with
  | none => trivial
  | some v =>
    cases v with
    | report r => exact ReportRel.refl
    | item x => exact Or.inl rfl
    | attachment x => exact Or.inl rfl
    | _ => trivial

theorem Frozen.append {k : RowId} {new : Option Version} (h : Frozen U call tr k old new)
    (evs : Trace) : Frozen U call (tr ++ evs) k old new := by
  unfold Frozen at h ⊢
  split at h
  · exact ReportRel.append h evs
  · exact h.imp_right fun hp => hp.append evs
  · exact h.imp_right fun hp => hp.append evs
  · trivial

end

section

variable {C : World server → Action server → Prop} {d₀ : Database} {w : World server} {i : Nat}
  {s : Session server}

/-- A row a session does not see is not committed. -/
theorem uncommitted_of_unseen (h : Reachable C (.init d₀) w) (hs : w.sessions[i]? = some s)
    {k : RowId} (hk : (s.view w.db).get k = none) : w.db.get k = none := by
  cases hg : w.db.get k with
  | none => rfl
  | some v =>
    obtain ⟨v', hv', _⟩ := kept_respected.relates h hs k v hg
    rw [show server.get (s.view w.db) k = none from hk] at hv'
    cases hv'

/-- **Every session keeps what it has no permit for.** -/
theorem frozen_relates {U : Prop} (hU : U ∨ ∀ w a, C w a → DistinctNow d₀ w a)
    (h : Reachable C (.init d₀) w) (hs : w.sessions[i]? = some s) :
    s.Relates (Frozen U s.call s.trace) w.db := by
  refine h.relates (R := Frozen U) (fun _ _ _ _ => frozen_refl)
    (fun _ _ evs _ _ _ hr => hr.append evs) ?_ hs
  intro w i o s q t v hw _ hs hrel hv
  cases v with
  | report r =>
    have hview : ∀ x, (s.view w.db).reports.find r.reportID = some x →
        ReportRel U s.call s.trace (w.db.get (.report r.reportID)) x := by
      intro x hx
      have hk := hrel (RowId.report r.reportID)
      rwa [show server.get (s.view w.db) (.report r.reportID) = some (.report x) from
        get_report.mpr hx] at hk
    obtain ⟨actor, e, snap, o', hcall, hc⟩ := report_change hw hs hv
    show ReportRel U s.call s.trace (w.db.get (.report r.reportID)) r
    cases hc with
    | create hnone hr =>
      -- the report is new, so no committed one is touched
      have hnew := uncommitted_of_unseen hw hs (get_report_none.mpr hnone)
      obtain ⟨_, _, hdel⟩ := reportRow_ok hr
      refine ⟨Or.inr (Or.inr fun y hy => ?_), fun hd => ?_, fun _ _ _ _ y hy => ?_⟩
      · exact nomatch hnew.symm.trans hy
      · rw [hdel] at hd
        cases hd
      · exact nomatch hnew.symm.trans hy
    | @update k params r₀ x r hr hu hd hrv hcl hx hid hxv hset =>
      have hkey := (read_report hw hs hr).1
      simp only [reportIs, Bool.and_eq_true, decide_eq_true_eq] at hid
      obtain ⟨_, _, rfl⟩ := setReport_ok hset
      have hrel := hview x (Table.find_of_mem hx)
      refine ⟨Or.inr ?_, hrel.deletion_of_same rfl rfl, hrel.status_of_same rfl⟩
      rcases hU with hu' | hD
      · refine Or.inl ⟨hu', actor, params, ?_, ?_⟩
        · rw [hcall, ← hkey, ← hid.1.2]
        · rw [show x.reportID = k from hid.1.2.trans hkey]
          exact ⟨r₀, hr, hu, hd⟩
      · -- The version is unique, so what is overwritten is the draft that was read.
        have hk : x.reportID = k := hid.1.2.trans hkey
        subst hk
        obtain ⟨_, hcom⟩ := read_again hD hw hs hv.txn hr (Table.find_of_mem hx) hxv
        refine Or.inr fun y hy => Or.inl ?_
        cases (get_report.mpr hcom).symm.trans hy
        exact hd
    | @status e k v r₀ r₁ x r hver hr hrv hT hcl hx hid hxv hset =>
      obtain ⟨_, _, _, _, rfl⟩ := setReportStatus_ok hset
      have hrel := hview x (Table.find_of_mem hx)
      refine ⟨hrel.header_of_same rfl ⟨rfl, rfl, rfl, rfl⟩, hrel.deletion_of_same rfl rfl, ?_⟩
      intro actor' e' hcall' hnone
      -- a transition names the version it read, so this call is no exception
      cases hcall.symm.trans hcall'
      rw [hver] at hnone
      cases hnone
    | @delete e k x he hd hx hid =>
      have hrel := hview x (Table.find_of_mem hx)
      simp only [reportIs, Bool.and_eq_true, decide_eq_true_eq] at hid
      refine ⟨hrel.header_of_same rfl ⟨rfl, rfl, rfl, rfl⟩, fun _ => Or.inl ?_,
        hrel.status_of_same rfl⟩
      exact ⟨actor, e, hcall, he.trans (congrArg some hid.1.2.symm), hid.1.2 ▸ hd⟩
    | @total e k x r hp hx ht hk hset =>
      rw [setReportTotalAmount_ok hset] at hview ⊢
      have hrel := hview x (Table.find_of_mem hx)
      refine ⟨Or.inl ?_, hrel.deletion_of_same rfl rfl, hrel.status_of_same rfl⟩
      rw [hcall]
      exact .mk (hk ▸ hp)
  | item x =>
    obtain ⟨actor, e, snap, o', hcall, hc⟩ := item_change hw hs hv
    refine Or.inr ?_
    rw [hcall]
    exact .mk hc.permit
  | attachment x =>
    obtain ⟨actor, e, snap, o', hcall, hc⟩ := attachment_change hw hs hv
    refine Or.inr ?_
    rw [hcall]
    exact .mk hc.permit
  | _ => trivial

/-! ## At the commit -/

/-- **A check that is in time still holds at the commit.** -/
theorem draft_of_inTime (h : Reachable C (.init d₀) w) (hs : w.sessions[i]? = some s)
    {actor : Actor} {k : UUID} (hd : DraftSeen actor s.trace k)
    (htime : ∀ e ∈ w.log, ¬ LeavesDraft k e.pre e.post) :
    ∃ r, w.db.reports.find k = some r ∧ r.status = .draft := by
  obtain ⟨r, hr, _, hst⟩ := hd
  obtain ⟨_, _, _, d, hdh, hfind⟩ := read_report h hs hr
  refine h.since (P := fun d : Database => ∃ r, d.reports.find k = some r ∧ r.status = .draft)
    ⟨d, hdh, r, hfind, hst⟩ ?_
  rintro e he ⟨x, hx, hxs⟩
  obtain ⟨v, hv, hk⟩ := kept_respected.log h e he (RowId.report k) _ (get_report.mpr hx)
  cases v with
  | report y =>
    refine ⟨y, get_report.mp hv, ?_⟩
    by_contra hys
    exact htime e he ⟨x, y, hx, hxs, get_report.mp hv, hys⟩
  | _ => exact hk.elim

/-- A report the transaction has created is its own until it commits. -/
def CreatedHeld (d : Database) (s : Session server) : Prop :=
  ∀ (actor : Actor) (e : Endpoint) (t : Txn server) (p : Sql.CreateReportParams)
    (r : ExpenseReport), s.call = .tenant actor e → s.txn = some t → t.failed = false →
    (⟨.sql (.createReport p), .ok r⟩ : Event Command Command.Resp) ∈ s.trace →
    s.Holds (.report r.reportID) ∧ d.get (.report r.reportID) = none

theorem CreatedHeld.answered {d : Database} (h : CreatedHeld d s) {s' : Session server}
    {ev : Event Command Command.Resp} (hcall : s'.call = s.call) (ht : s'.txn = s.txn)
    (htr : s'.trace = s.trace ++ [ev])
    (hev : ∀ p r, ev ≠ ⟨.sql (.createReport p), .ok r⟩) : CreatedHeld d s' := by
  intro actor e t p r hc ht' hf hmem
  rw [htr, List.mem_append, List.mem_singleton] at hmem
  rcases hmem with hmem | rfl
  · obtain ⟨⟨v, hv, hk⟩, hnone⟩ := h actor e t p r (hcall ▸ hc) (ht ▸ ht') hf hmem
    exact ⟨⟨v, by rwa [Session.writes_of_txn ht', ← Session.writes_of_txn (ht ▸ ht')], hk⟩, hnone⟩
  · exact absurd rfl (hev p r)

theorem createdHeld (h : Reachable C (.init d₀) w) (hs : w.sessions[i]? = some s) :
    CreatedHeld w.db s := by
  refine h.session_rule (P := fun d _ _ s => CreatedHeld d s) ?_ ?_ ?_ ?_ i s hs
  · intro w c _ _ actor e t p r _ ht
    cases ht
  · intro w i o s s' d' hw hC hall hs hm
    have ih := hall i s hs
    cases hm with
    | begin hp ht =>
      intro actor e t p r hc _ _ hmem
      have hask := asked hw hs hp
      have hc : s.call = .tenant actor e := hc
      rw [hc] at hask
      -- a request opens one transaction, and before it nothing was created
      have htr : s.trace = [] := hask
      simp [Session.answered, htr] at hmem
    | commit hp ht hf | abandon hp ht hf | rollback hp =>
      intro _ _ _ _ _ _ ht'
      cases ht'
    | ext hp | barred hp ht hf =>
      refine ih.answered rfl rfl rfl fun _ _ hev => ?_
      cases hev
    | query hp ht hf hq hr =>
      refine ih.answered rfl rfl rfl fun _ _ hev => ?_
      cases hev
      cases hq
    | refused hp ht hf hr =>
      intro actor e t' p r hc ht' hf'
      have hu := Session.txn_undone ht
      simp only [Session.answered] at ht'
      rw [hu] at ht'
      cases ht'
      cases hf'
    | @insert q k t row resp v hp ht hf hq hr hu hcl =>
      have hwr : ((s.wrote v).answered (.sql q) (.ok (resp v)) k).writes = s.writes ++ [v] :=
        Session.writes_wrote ht
      intro actor e t' p r hc ht' hf' hmem
      rcases List.mem_append.mp hmem with hmem | hmem
      · -- the report was created before, and is still held
        obtain ⟨⟨u, hu', hk⟩, hnone⟩ := ih actor e t p r hc ht hf hmem
        exact ⟨⟨u, hwr ▸ List.mem_append_left _ hu', hk⟩, hnone⟩
      · cases List.mem_singleton.mp hmem
        have hwriting : (server.sem (.createReport p)).Writes w.db (s.view w.db) t.clock o v := by
          rw [hq, Sem.writes_insert]
          exact hr
        obtain ⟨r', _, rfl⟩ := Relation.writes_insert hwriting rfl
        cases hq
        refine ⟨⟨_, hwr ▸ List.mem_append_right _ (List.mem_singleton_self _), rfl⟩, ?_⟩
        -- the key was not taken in the session's view, so it is not in the database
        refine uncommitted_of_unseen hw hs (Option.not_isSome_iff_eq_none.mp fun hsome => ?_)
        exact absurd (hu.symm.trans (server.taken_of_get (s.view w.db) (.report r') hsome)) (by simp)
    | snapshot hp ht hf hq hpe => exact ih
    | skip hp ht hf hq hpe hto hl ha => exact ih
    | write hp ht hf hq hpe hto hl ha =>
      intro actor e t' p r hc _ _ hmem
      obtain ⟨⟨u, hu, hk⟩, hnone⟩ := ih actor e _ p r hc ht hf hmem
      exact ⟨⟨u, (Session.writes_wrote ht).symm ▸ List.mem_append_left _ hu, hk⟩, hnone⟩
    | finish hp ht hf hq hpe hto =>
      refine ih.answered rfl rfl rfl fun _ _ hev => ?_
      cases hev
      cases hq
  · intro w i s s' _ hs _ hb actor e t p r _ ht hf
    rcases hb.txn with hnone | ⟨_, t', _, ht', _, hf'⟩
    · cases hnone.symm.trans ht
    · cases ht.symm.trans ht'
      cases hf.symm.trans hf'
  · intro w i j o s s' t d' hw _ hall hij hs ht hm actor e u p r hc hu hf hmem
    obtain ⟨hheld, hnone⟩ := hall j t ht actor e u p r hc hu hf hmem
    -- two sessions never hold the same row
    rw [hm.publishes]
    refine ⟨hheld, ?_⟩
    exact (Session.get_publish_of_holds (World.locks_disjoint hw i j s t hij hs ht) hheld).trans
      hnone

/-- A report there is a permit for at the commit is a draft, or not committed yet. -/
theorem draft_of_permitted (h : Reachable C (.init d₀) w) (hs : w.sessions[i]? = some s)
    (hc : s.Committing) {k : UUID} (hp : Permitted s.trace k s.call)
    (hedit : EditChecked s.call s.trace k → ∀ e ∈ w.log, ¬ LeavesDraft k e.pre e.post)
    (hdelete : DeleteChecked s.call s.trace k → ∀ e ∈ w.log, ¬ LeavesDraft k e.pre e.post)
    {r : ExpenseReport} (hr : w.db.reports.find k = some r) : r.status = .draft := by
  have hdraft : ∀ {actor : Actor}, DraftSeen actor s.trace k →
      (∀ e ∈ w.log, ¬ LeavesDraft k e.pre e.post) → r.status = .draft := by
    intro actor hd htime
    obtain ⟨x, hx, hxs⟩ := draft_of_inTime h hs hd htime
    cases hr.symm.trans hx
    exact hxs
  generalize hcall : s.call = call at hp hedit hdelete
  obtain @⟨actor, e, hp⟩ := hp
  cases hp with
  | edit he hd => exact hdraft hd (hedit ⟨actor, e, rfl, he, hd⟩)
  | delete he hd => exact hdraft hd (hdelete ⟨actor, e, rfl, he, hd⟩)
  | copy hcr =>
    obtain ⟨p, x, hmem, rfl, _⟩ := hcr
    obtain ⟨_, t, ht, hf⟩ := hc
    obtain ⟨_, hnone⟩ := createdHeld h hs actor _ t p x hcall ht hf hmem
    exact nomatch (get_report.mpr hr).symm.trans hnone

end

end ExpenseSaas
