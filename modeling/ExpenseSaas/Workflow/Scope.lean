import ExpenseSaas.Contract.Shape
import ExpenseSaas.Workflow.Freeze
import ExpenseSaas.Workflow.Parents

/-!
# The scope of a call

A request carries the tenant of its actor, and most name a report in their path.
Nothing else decides what a request may touch: the statements repeat the tenant
and the report in their `WHERE`, and the rows that hang together repeat them too.

`scoped_of_reachable` says what this comes to for a commit, in any interleaving
of any calls. What a request commits are rows of its own tenant, and of the
report it names; what it creates are rows of a report that was not there. All
other rows are what they were, those of other tenants first of all, and no row
goes away. The calls of `auth_service.go` touch nothing that belongs to a report.
-/

namespace ExpenseSaas

open ReadCommitted Sql

/-- The report a row is part of. -/
def Version.reportID : Version → Option UUID
  | .report r => some r.reportID
  | .item x => some x.reportID
  | .attachment a => some a.reportID
  | _ => none

/-- The report an endpoint changes. -/
def Endpoint.target (e : Endpoint) : Option UUID :=
  e.edits.or (e.deletes.or (e.version.map Prod.fst))

/-- What a call may write. -/
def InScope : Call → Version → Prop
  | .tenant actor e, v => v.tenantID = some actor.tenantID ∧ ∃ k, v.reportID = some k ∧
      (e.target = some k ∨ ∃ params, e = .createReport params)
  | .signup _, .tenant _ => True
  | .signup _, .user _ => True
  | .signup _, .membership _ => True
  | .signup _, .refreshToken _ => True
  | .login _ _, .refreshToken _ => True
  | .refreshToken _, .refreshToken _ => True
  | .logout _, .refreshToken _ => True
  | .requestPasswordReset _, .passwordResetToken _ => True
  | .executePasswordReset _ _, .user _ => True
  | .executePasswordReset _ _, .passwordResetToken _ => True
  | .executePasswordReset _ _, .refreshToken _ => True
  | _, _ => False

/-- A call that creates a report holds only rows of reports that were not there. -/
def OfNewReport (call : Call) (d : Database) (v : Version) : Prop :=
  ∀ actor params, call = .tenant actor (.createReport params) →
    d.get v.id = none ∧ ∀ k, v.reportID = some k → d.reports.find k = none

/-- **What a commit of the call has changed is in its scope.** -/
structure Scoped (call : Call) (d d' : Database) : Prop where
  changed : ∀ key v, d'.get key = some v →
    d.get key = some v ∨ (InScope call v ∧ OfNewReport call d v)
  there : ∀ key v, d.get key = some v → ∃ v', d'.get key = some v'
  tenant : ∀ actor e, call = .tenant actor e → ∀ key v t, d.get key = some v →
    v.tenantID = some t → t ≠ actor.tenantID → d'.get key = some v
  report : ∀ actor e k, call = .tenant actor e → e.target = some k → ∀ key v j,
    d.get key = some v → v.reportID = some j → j ≠ k → d'.get key = some v
  rest : ∀ actor e, call = .tenant actor e → ∀ key v, d.get key = some v →
    v.reportID = none → d'.get key = some v

/-- Versions of one row are parts of one report, in one tenant. -/
theorem Version.Kept.scope {v v' : Version} (h : v.Kept v') (hid : v'.id = v.id) :
    v'.tenantID = v.tenantID ∧ v'.reportID = v.reportID := by
  cases v with
  | report r =>
    cases v' with
    | report r' => exact ⟨congrArg some h.tenantID, congrArg some (RowId.report.inj hid)⟩
    | _ => exact h.elim
  | item x =>
    cases v' with
    | item x' => exact ⟨congrArg some h.tenantID, congrArg some h.reportID⟩
    | _ => exact h.elim
  | attachment a =>
    cases v' with
    | attachment a' => exact ⟨congrArg some h.tenantID, congrArg some h.reportID⟩
    | _ => exact h.elim
  | _ => cases v' <;> first | exact h.elim | exact ⟨rfl, rfl⟩

section

variable {C : World server → Action server → Prop} {d₀ : Database} {w : World server} {i : Nat}
  {s : Session server} {actor : Actor} {e : Endpoint} {tr : Trace}

/-! ## What is written -/

/-- A permit is for the report the endpoint changes, or for one it has created. -/
theorem Permit.target {k : UUID} (h : Permit actor tr k e) :
    e.target = some k ∨ ∃ params, e = .createReport params := by
  cases h with
  | edit he hd => exact Or.inl (by simp [Endpoint.target, he])
  | delete he hd =>
    have hedits : e.edits = none := by cases e <;> first | rfl | cases he
    exact Or.inl (by simp [Endpoint.target, hedits, he])
  | copy hc => exact Or.inr ⟨_, rfl⟩

theorem ReportChange.target {snap cur : Database} {clock o : Oracle} {r : ExpenseReport}
    (h : ReportChange actor tr snap cur clock o e r)
    (hread : ∀ k x, ReadReport actor tr k x → x.reportID = k) :
    e.target = some r.reportID ∨ ∃ params, e = .createReport params := by
  cases h with
  | create hnone hr => exact Or.inr ⟨_, rfl⟩
  | update hr hu hd hv hc hx hid hxv hs =>
    obtain ⟨_, _, rfl⟩ := setReport_ok hs
    simp only [reportIs, Bool.and_eq_true, decide_eq_true_eq] at hid
    exact Or.inl (congrArg some (hid.1.2.trans (hread _ _ hr)).symm)
  | status hver hr hv hT hc hx hid hxv hs =>
    obtain ⟨_, _, _, _, rfl⟩ := setReportStatus_ok hs
    simp only [reportIs, Bool.and_eq_true, decide_eq_true_eq] at hid
    have hk := (hid.1.2.trans hT.key.1).trans (hread _ _ hr)
    have hnone : e.edits = none ∧ e.deletes = none := by
      cases e <;> first | exact ⟨rfl, rfl⟩ | cases hver
    exact Or.inl (by simp [Endpoint.target, hnone, hver, hk])
  | @delete e k x he hd hx hid =>
    simp only [reportIs, Bool.and_eq_true, decide_eq_true_eq] at hid
    have hp : Permit actor tr k e := .delete he hd
    exact hid.1.2 ▸ hp.target
  | total hp hx ht hk hs =>
    rw [setReportTotalAmount_ok hs]
    exact hk ▸ hp.target

/-- What a request writes is part of a report. -/
theorem reportID_of_writing (h : Reachable C (.init d₀) w) (hs : w.sessions[i]? = some s)
    (hcall : s.call = .tenant actor e) {q : Stmt} {t : Txn server} {v : Version}
    (hv : Writing w.db (w.others i) s q t v) : ∃ k, v.reportID = some k := by
  obtain ⟨_, hissues⟩ := issued_of_writing h hs hcall hv
  obtain ⟨snap, o, hw⟩ := hv.writes
  cases v with
  | report r => exact ⟨_, rfl⟩
  | item x => exact ⟨_, rfl⟩
  | attachment a => exact ⟨_, rfl⟩
  | tenant x =>
    obtain ⟨name, rfl⟩ := tenant_writes hw
    cases e <;> cases hissues
  | user u =>
    have hw : UserWrite snap (s.view w.db) t.clock o q u := user_writes hw
    cases hw <;> cases e <;> cases hissues
  | membership m =>
    obtain rfl := membership_writes hw
    cases e <;> cases hissues
  | category c => exact absurd hw not_category_writes
  | refreshToken x =>
    have hw : RefreshTokenWrite snap (s.view w.db) t.clock o q x := refreshToken_writes hw
    cases hw <;> cases e <;> cases hissues
  | passwordResetToken x =>
    have hw : ResetTokenWrite snap (s.view w.db) t.clock o q x := resetToken_writes hw
    cases hw <;> cases e <;> cases hissues

/-- What another call writes is in the scope of that call. -/
theorem inScope_of_auth {call : Call} {q : Stmt} {snap cur : Database} {clock o : Oracle}
    {v : Version} (hm : AuthMayWrite tr call q) (hw : q.sem.Writes snap cur clock o v) :
    InScope call v := by
  cases hm with
  | createTenant =>
    obtain ⟨_, _, rfl⟩ := tenantRows.writes_insert hw rfl
    trivial
  | createUser =>
    obtain ⟨_, _, rfl⟩ := userRows.writes_insert hw rfl
    trivial
  | createMembership =>
    obtain ⟨_, _, rfl⟩ := membershipRows.writes_insert hw rfl
    trivial
  | signupToken _ =>
    obtain ⟨_, _, rfl⟩ := refreshTokenRows.writes_insert hw rfl
    trivial
  | loginToken _ _ =>
    obtain ⟨_, _, rfl⟩ := refreshTokenRows.writes_insert hw rfl
    trivial
  | newToken _ _ =>
    obtain ⟨_, _, rfl⟩ := refreshTokenRows.writes_insert hw rfl
    trivial
  | requestReset =>
    obtain ⟨_, _, rfl⟩ := passwordResetTokenRows.writes_insert hw rfl
    trivial
  | rotate _ _ | reuse _ _ | logout _ _ =>
    obtain ⟨_, _, _, _, _, rfl⟩ := refreshTokenRows.writes_update hw rfl
    trivial
  | resetPassword _ =>
    obtain ⟨_, _, _, _, _, rfl⟩ := userRows.writes_update hw rfl
    trivial
  | resetMark _ =>
    obtain ⟨_, _, _, _, _, rfl⟩ := passwordResetTokenRows.writes_update hw rfl
    trivial
  | resetRevoke _ =>
    obtain ⟨_, _, _, _, _, rfl⟩ := refreshTokenRows.writes_update hw rfl
    trivial

/-- **Every write is in the scope of the call that makes it.** -/
theorem inScope_of_writing (h : Reachable C (.init d₀) w) (hs : w.sessions[i]? = some s)
    {q : Stmt} {t : Txn server} {v : Version} (hv : Writing w.db (w.others i) s q t v) :
    InScope s.call v := by
  have hm := may_write h hs hv
  generalize hcall : s.call = call at hm
  cases hm with
  | auth hm =>
    obtain ⟨snap, o, hw⟩ := hv.writes
    exact inScope_of_auth hm hw
  | @request actor e q hm =>
    obtain ⟨k, hk⟩ := reportID_of_writing h hs hcall hv
    have htenant : ∀ u, v.tenantID = some u → v.tenantID = some actor.tenantID := by
      intro u hu
      obtain ⟨actor', e', hcall', ht⟩ := tenant_of_writing h hs hv hu
      cases hcall.symm.trans hcall'
      exact ht ▸ hu
    cases v with
    | report r =>
      obtain ⟨actor', e', snap, o, hcall', hc⟩ := report_change h hs hv
      cases hcall.symm.trans hcall'
      exact ⟨htenant _ rfl, _, rfl, hc.target fun k x hx => (read_report h hs hx).1⟩
    | item x =>
      obtain ⟨actor', e', snap, o, hcall', hc⟩ := item_change h hs hv
      cases hcall.symm.trans hcall'
      exact ⟨htenant _ rfl, _, rfl, hc.permit.target⟩
    | attachment a =>
      obtain ⟨actor', e', snap, o, hcall', hc⟩ := attachment_change h hs hv
      cases hcall.symm.trans hcall'
      exact ⟨htenant _ rfl, _, rfl, hc.permit.target⟩
    | _ => cases hk

/-! ## What is created -/

/-- The rows a call has written that creates a report are not there, and it has their report. -/
def NewHeld (d : Database) (s : Session server) : Prop :=
  ∀ actor params, s.call = .tenant actor (.createReport params) → ∀ v ∈ s.writes,
    d.get v.id = none ∧ ∀ k, v.reportID = some k → s.Holds (E := server) (.report k)

/-- What such a call adds to its rows. -/
theorem newHeld_of_writing (h : Reachable C (.init d₀) w) (hs : w.sessions[i]? = some s)
    (hnew : NewHeld w.db s) {params : CreateReportParams}
    (hcall : s.call = .tenant actor (.createReport params)) {q : Stmt} {t : Txn server}
    {v : Version} (hv : Writing w.db (w.others i) s q t v) : w.db.get v.id = none ∧
      (v.id = .report (v.reportID.getD default) ∨
        ∀ k, v.reportID = some k → s.Holds (E := server) (.report k)) := by
  have hcreated : ∀ {k}, Permit actor s.trace k (.createReport params) →
      s.Holds (E := server) (.report k) ∧ w.db.get (.report k) = none := by
    intro k hp
    -- this call edits and deletes nothing, so its permit is for the report it has created
    cases hp with
    | edit he => cases he
    | delete he => cases he
    | copy hc =>
      obtain ⟨p, x, hmem, rfl, _⟩ := hc
      exact createdHeld h hs actor _ t p x hcall hv.txn hv.sound hmem
  have hfresh : server.inserts q = true → w.db.get v.id = none := by
    intro hins
    have hview : server.get (s.view w.db) v.id = none := hv.fresh hins
    by_cases hheld : s.Holds (E := server) v.id
    · obtain ⟨u, _, _, hget⟩ := Session.get_view_of_holds hheld
      exact nomatch (hget w.db).symm.trans hview
    · exact (Session.get_view_of_free hheld).symm.trans hview
  obtain ⟨_, hissues⟩ := issued_of_writing h hs hcall hv
  obtain ⟨snap, o, hw⟩ := hv.writes
  cases v with
  | report r =>
    obtain ⟨actor', e', snap', o', hcall', hc⟩ := report_change h hs hv
    cases hcall.symm.trans hcall'
    refine ⟨?_, Or.inl rfl⟩
    cases hc with
    | create hnone hr =>
      -- an identifier that is held already was new when it was
      by_cases hheld : s.Holds (E := server) (.report r.reportID)
      · obtain ⟨u, hu, hid, _⟩ := Session.get_view_of_holds hheld
        have hu' : u.id = (Version.report r).id := hid
        rw [← hu']
        exact (hnew actor params hcall u hu).1
      · have hview : server.get (s.view w.db) (.report r.reportID) = none :=
          get_report_none.mpr hnone
        exact (Session.get_view_of_free hheld).symm.trans hview
    | status hver => cases hver
    | delete he => cases he
    -- a total is only written for the report created
    | total hp hx ht hk hset =>
      rw [setReportTotalAmount_ok hset]
      exact hk ▸ (hcreated hp).2
  | item x =>
    obtain ⟨actor', e', snap', o', hcall', hc⟩ := item_change h hs hv
    cases hcall.symm.trans hcall'
    refine ⟨hfresh ?_, Or.inr fun k hk => ?_⟩
    · have hw : ItemWrite snap (s.view w.db) t.clock o q x := item_writes hw
      cases hw with
      | create => rfl
      | _ => cases hissues
    · cases hk
      exact (hcreated hc.permit).1
  | attachment a =>
    have hw : AttachmentWrite snap (s.view w.db) t.clock o q a := attachment_writes hw
    cases hw <;> cases hissues
  | _ =>
    obtain ⟨k, hk⟩ := reportID_of_writing h hs hcall hv
    cases hk

theorem newHeld (h : Reachable C (.init d₀) w) (hs : w.sessions[i]? = some s) :
    NewHeld w.db s := by
  refine h.session_rule (P := fun d _ _ s => NewHeld d s) ?_ ?_ ?_ ?_ i s hs
  · intro w c _ _ actor params _ v hv
    exact absurd hv List.not_mem_nil
  · intro w i o s s' d' hw _ hall hs hm actor params hcall v hv
    rw [hm.told.call_eq] at hcall
    have ih := hall i s hs
    -- what is held stays held while the writes only grow
    have hmono : (∀ u ∈ s.writes, u ∈ s'.writes) → ∀ {k}, s.Holds (E := server) (.report k) →
        s'.Holds (E := server) (.report k) := by
      rintro hsub k ⟨u, hu, hid⟩
      exact ⟨u, hsub u hu, hid⟩
    cases hm.effect with
    | quiet hwr =>
      rw [hwr] at hv
      obtain ⟨hnone, hheld⟩ := ih actor params hcall v hv
      exact ⟨hnone, fun k hk => hmono (fun u hu => hwr ▸ hu) (hheld k hk)⟩
    | undo hwr =>
      rw [hwr] at hv
      exact absurd hv List.not_mem_nil
    | publish hp ht hf hwr =>
      rw [hwr] at hv
      exact absurd hv List.not_mem_nil
    | wrote u hu hwr =>
      have hsub : ∀ x ∈ s.writes, x ∈ s'.writes := by
        intro x hx
        rw [hwr]
        exact List.mem_append_left _ hx
      rw [hwr] at hv
      rcases List.mem_append.mp hv with hv | hv
      · obtain ⟨hnone, hheld⟩ := ih actor params hcall v hv
        exact ⟨hnone, fun k hk => hmono hsub (hheld k hk)⟩
      · obtain rfl := List.mem_singleton.mp hv
        obtain ⟨hnone, hkey⟩ := newHeld_of_writing hw hs ih hcall hu
        refine ⟨hnone, fun k hk => ?_⟩
        -- the row just written is the report itself, or is filed under one that is held
        rcases hkey with hid | hheld
        · rw [hk] at hid
          refine ⟨v, ?_, hid⟩
          rw [hwr]
          exact List.mem_append_right _ hv
        · exact hmono hsub (hheld k hk)
  · intro w i s s' _ _ _ hb actor params _ v hv
    rw [hb.writes] at hv
    exact absurd hv List.not_mem_nil
  · intro w i j o s s' t d' hw _ hall hij hs ht hm actor params hcall v hv
    obtain ⟨hnone, hheld⟩ := hall j t ht actor params hcall v hv
    -- another session commits: it held none of these rows
    have hap := World.locks_disjoint hw i j s t hij hs ht
    rw [hm.publishes]
    exact ⟨(Session.get_publish_of_holds (E := server) hap (Session.holds_of_mem hv)).trans hnone,
      hheld⟩

/-! ## Every commit -/

theorem scoped_of_commit (h : Reachable C (.init d₀) w) (hs : w.sessions[i]? = some s) :
    Scoped s.call w.db (s.view w.db) := by
  have hwrites : ∀ v ∈ s.writes, InScope s.call v :=
    h.writes_rule (P := InScope) (fun hw _ hs hv => inScope_of_writing hw hs hv) hs
  have hnew : ∀ v ∈ s.writes, OfNewReport s.call w.db v := by
    intro v hv actor params hcall
    have hheld := newHeld h hs actor params hcall
    refine ⟨(hheld v hv).1, fun k hk => ?_⟩
    obtain ⟨u, hu, hid⟩ := (hheld v hv).2 k hk
    have hu' : u.id = RowId.report k := hid
    exact get_report_none.mp (hu' ▸ (hheld u hu).1)
  have hchanged : ∀ key v, (s.view w.db).get key = some v →
      w.db.get key = some v ∨ (InScope s.call v ∧ OfNewReport s.call w.db v) := by
    intro key v hv
    by_cases hheld : s.Holds (E := server) key
    · obtain ⟨u, hu, _, hget⟩ := Session.get_view_of_holds hheld
      have huv : u = v := Option.some.inj ((hget w.db).symm.trans hv)
      exact Or.inr (huv ▸ ⟨hwrites u hu, hnew u hu⟩)
    · exact Or.inl ((Session.get_view_of_free hheld).symm.trans hv)
  -- A row that is not what it was is in scope, and so was its earlier version.
  have hrow : ∀ key v, w.db.get key = some v → (s.view w.db).get key = some v ∨
      ∃ v', InScope s.call v' ∧ v'.tenantID = v.tenantID ∧ v'.reportID = v.reportID := by
    intro key v hv
    obtain ⟨v', hv', hk⟩ := kept_respected.relates h hs key v hv
    rcases hchanged key v' hv' with hold | ⟨hin, _⟩
    · cases hv.symm.trans hold
      exact Or.inl hv'
    · have hid : v'.id = v.id :=
        (id_of_server_get hv').trans (id_of_server_get (k := key) hv).symm
      exact Or.inr ⟨v', hin, hk.scope hid⟩
  refine ⟨hchanged, ?_, ?_, ?_, ?_⟩
  · intro key v hv
    obtain ⟨v', hv', _⟩ := kept_respected.relates h hs key v hv
    exact ⟨v', hv'⟩
  · intro actor e hcall key v t hv ht hne
    refine (hrow key v hv).resolve_right ?_
    rintro ⟨v', hin, htenant, _⟩
    rw [hcall] at hin
    exact hne (Option.some.inj (ht.symm.trans (htenant.symm.trans hin.1)))
  · intro actor e k hcall he key v j hv hj hne
    refine (hrow key v hv).resolve_right ?_
    rintro ⟨v', hin, _, hreport⟩
    rw [hcall] at hin
    obtain ⟨_, k', hk', hin⟩ := hin
    have hkj : k' = j := Option.some.inj (hk'.symm.trans (hreport.trans hj))
    rcases hin with htarget | ⟨params, rfl⟩
    · exact hne (hkj.symm.trans (Option.some.inj (htarget.symm.trans he)))
    · cases he
  · intro actor e hcall key v hv hnone
    refine (hrow key v hv).resolve_right ?_
    rintro ⟨v', hin, _, hreport⟩
    rw [hcall] at hin
    obtain ⟨_, k', hk', _⟩ := hin
    exact nomatch hk'.symm.trans (hreport.trans hnone)

/--
**Every commit stays in the scope of its call.** In every run, whatever else goes
on, a request changes only rows of its actor's tenant and of the report it names,
and the calls that are none change nothing that belongs to a report.
-/
theorem scoped_of_reachable (h : Reachable C (.init d₀) w) :
    ∀ f ∈ w.log, ∃ s, w.sessions[f.sess]? = some s ∧ Scoped s.call f.pre f.post :=
  h.entry_rule (J := Scoped) fun {w i o s s' d'} hw _ hs hm => by
    rw [hm.publishes]
    exact scoped_of_commit hw hs

end

/-- An item is added, the report submitted and approved: three commits on one report. -/
theorem scoped_of_addSubmitApprove : ∃ w : World server,
    Reachable (fun _ _ => True) (.init Sample.database) w ∧ w.log.length = 3 ∧
      ∀ f ∈ w.log, ∃ s, w.sessions[f.sess]? = some s ∧ Scoped s.call f.pre f.post := by
  have hrun : ((World.init Sample.database : World server).run (fun _ _ => true)
      Sample.addSubmitApprove).any (fun w => w.log.length = 3) = true := by
    decide +kernel
  obtain ⟨w, hw, hlen⟩ := exists_of_run (C := fun _ _ => True) (fun _ _ _ => trivial) hrun
  exact ⟨w, hw, of_decide_eq_true hlen, scoped_of_reachable hw⟩

end ExpenseSaas
