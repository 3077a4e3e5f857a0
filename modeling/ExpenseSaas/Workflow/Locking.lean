import ExpenseSaas.Contract.Shape
import ExpenseSaas.ReadCommitted.Answers
import ExpenseSaas.Runs.Schedules

/-!
# Optimistic locking

A client that changes the header or the status of a report names the version it
has seen. The service compares it with the version it reads, and the statement
that writes the row back compares it again with the row's current version, after
any wait for a lock. A row that is not found any more is `ErrConflict`.

`lostNoUpdate_of_distinctNow` says what this is worth when no two transactions
start at the same time, in any interleaving of any calls: a commit of such a
request replaces exactly the row it has read, under the version its client
named, and of all requests that name one version of a report one at most commits.
-/

namespace ExpenseSaas

open ReadCommitted Sql

/-! ## What is committed was written -/

/-- In its open transaction the request has written a report back, and found it. -/
def WroteBack (tr : Trace) : Prop :=
  (∃ p r, (⟨.sql (.updateReport p), .ok (some r)⟩ : Event Command Command.Resp) ∈
      server.current tr) ∨
    ∃ p r, (⟨.sql (.updateReportStatus p), .ok (some r)⟩ : Event Command Command.Resp) ∈
      server.current tr

/-- A call that names a version commits only what it has written back. -/
def LockAsks : Call → Trace → Command → Prop
  | .tenant _ e, tr, .commit => e.version.isSome → WroteBack tr
  | _, _, _ => True

/-- The contract of a request about what it has written by its commit. -/
abbrev lockContract (actor : Actor) (e : Endpoint) : Contract Command Command.Resp :=
  server.contract (LockAsks (.tenant actor e))

section

variable {α : Type} {actor : Actor} {e : Endpoint} {tr : Trace} {k : UUID}

theorem WroteBack.step (h : WroteBack tr) {t : UUID} {c : Command} (hc : Harmless t c)
    {r : Command.Resp c} : WroteBack (tr ++ [⟨c, r⟩]) := by
  cases c with
  | sql q =>
    unfold WroteBack
    rw [Engine.current_sql]
    refine h.imp ?_ ?_ <;>
    · rintro ⟨p, r, hmem⟩
      exact ⟨p, r, List.mem_append_left _ hmem⟩
  | ext x =>
    unfold WroteBack
    rw [Engine.current_ext]
    exact h
  | begin => exact hc.elim
  | commit => exact hc.elim
  | rollback => exact hc.elim

/-- Reading on does not undo it. -/
theorem wroteBack_of_reads {t : UUID} {x : Service α} (hx : ReadsIn t x) (h : WroteBack tr) :
    Svc.wp (lockContract actor e) tr x fun tr' _ => WroteBack tr' := by
  refine Prog.wp_of_only_inv (I := WroteBack) hx (fun tr c _ hc => ?_)
    (fun tr c r hI hc _ => hI.step hc) h (fun tr' a hI _ _ => hI)
  cases c with
  | commit => exact hc.elim
  | _ => trivial

theorem wroteBack_update {r : ExpenseReport} {Q : Trace → ExpenseReport → Prop}
    (hQ : ∀ tr' r', WroteBack tr' → Q tr' r') :
    Svc.wp (lockContract actor e) tr (ReportRepo.update r) Q := by
  unfold ReportRepo.update
  rw [Svc.wp_bind, wp_errorf]
  refine wp_sql trivial (fun row _ => ?_)
  rw [wp_orNoRows]
  rintro r' rfl
  exact hQ _ r' (Or.inl ⟨_, r', Engine.mem_current_sql⟩)

theorem wroteBack_updateStatus {r : ExpenseReport} {Q : Trace → ExpenseReport → Prop}
    (hQ : ∀ tr' r', WroteBack tr' → Q tr' r') :
    Svc.wp (lockContract actor e) tr (ReportRepo.updateStatus r) Q := by
  unfold ReportRepo.updateStatus
  rw [Svc.wp_bind, wp_errorf]
  refine wp_sql trivial (fun row _ => ?_)
  rw [wp_orNoRows]
  rintro r' rfl
  exact hQ _ r' (Or.inr ⟨_, r', Engine.mem_current_sql⟩)

/-- Before it writes, a service may do what it likes except commit. -/
theorem wp_before {t : UUID} {x : Service α} (hx : ReadsIn t x) {Q : Trace → α → Prop}
    (hQ : ∀ tr' a, Q tr' a) :
    Svc.wp (lockContract actor e) tr x Q := by
  refine Svc.wp_of_only hx (fun tr c hc => ?_) (fun evs _ a => hQ _ a)
  cases c with
  | commit => exact hc.elim
  | _ => trivial

theorem wroteBack_updateReport {params : UpdateReportParams} :
    Svc.wp (lockContract actor e) tr
      (ReportService.updateReport actor k params) fun tr' _ => WroteBack tr' := by
  unfold ReportService.updateReport
  simp only [Svc.wp_bind, wp_demand]
  refine wp_before looks_getReport.reads (fun tr₁ r _ _ _ _ => ?_)
  split
  · exact wp_fail.mpr trivial
  · simp only [Svc.wp_bind]
    exact wroteBack_update fun tr₂ r' h => wroteBack_of_reads looks_buildDetail.reads h

theorem wroteBack_submitReport {v : Timestamp} :
    Svc.wp (lockContract actor e) tr
      (ReportService.submitReport actor k v) fun tr' _ => WroteBack tr' := by
  unfold ReportService.submitReport
  simp only [Svc.wp_bind, wp_demand]
  refine wp_before looks_getReport.reads (fun tr₁ r _ _ => ?_)
  split
  · exact wp_fail.mpr trivial
  · simp only [Svc.wp_bind, wp_errorf, wp_demand]
    refine wp_before looks_hasApprover.reads (fun tr₂ _ => ?_)
    refine wp_before looks_listItems.reads (fun tr₃ _ => ?_)
    refine wp_ext trivial (fun now _ r' _ => ?_)
    exact wroteBack_updateStatus fun tr₄ r'' h => wroteBack_of_reads looks_buildDetail.reads h

theorem wroteBack_decideOn {v : Timestamp}
    {authorize : Actor → ExpenseReport → Except DomainError Unit}
    {transition : Timestamp → ExpenseReport → Except DomainError ExpenseReport} :
    Svc.wp (lockContract actor e) tr
      (WorkflowService.decideOn actor k v authorize transition) fun tr' _ => WroteBack tr' := by
  unfold WorkflowService.decideOn
  simp only [Svc.wp_bind, wp_demand]
  refine wp_before looks_getReport.reads (fun tr₁ r _ _ => ?_)
  split
  · exact wp_fail.mpr trivial
  · simp only [Svc.wp_bind, wp_demand]
    refine wp_ext trivial (fun now _ r' _ => ?_)
    exact wroteBack_updateStatus fun tr₂ r'' h =>
      wroteBack_of_reads (looks_buildWorkflowDetail (t := actor.tenantID)).reads h

/-- Whatever names a version has written it back when it returns. -/
theorem wroteBack_service {tr : Trace} (he : e.version.isSome) :
    Svc.wp (lockContract actor e) tr (e.service actor) fun tr' _ => WroteBack tr' := by
  have hmap : ∀ {x : Service ExpenseReportDetail},
      Svc.wp (lockContract actor e) tr x (fun tr' _ => WroteBack tr') →
      Svc.wp (lockContract actor e) tr (Payload.detail <$> x) fun tr' _ => WroteBack tr' := by
    intro x hx
    show Svc.wp (lockContract actor e) tr (x >>= fun a => pure (Payload.detail a)) _
    rw [Svc.wp_bind]
    exact Svc.wp_mono hx fun _ _ h => Svc.wp_pure.mpr h
  cases e with
  | updateReport k params => exact hmap wroteBack_updateReport
  | submitReport k v => exact hmap wroteBack_submitReport
  | approveReport k comment v => exact hmap wroteBack_decideOn
  | rejectReport k reason v h => exact hmap wroteBack_decideOn
  | markReportAsPaid k v => exact hmap wroteBack_decideOn
  | _ => cases he

/-- The transaction around a request asks for a commit after a result only. -/
theorem wp_tenantContext_commit {G : Contract Command Command.Resp} {t : UUID}
    {responder : Responder} {handler : Service Payload} (hbegin : ∀ tr, G.asks tr .begin)
    (hset : ∀ tr, G.asks tr (.sql (.setCurrentTenant t))) (hrollback : ∀ tr, G.asks tr .rollback)
    (h : ∀ tr, Svc.wp G tr handler fun tr' _ => G.asks tr' .commit) :
    Prog.wp G [] (tenantContext t responder handler) fun _ _ => True := by
  have hback : ∀ (tr : Trace) (a : Outcome), Prog.wp G tr
      (do let _ ← issue .rollback; pure a : Program Outcome) fun _ _ => True :=
    fun tr a => ⟨hrollback tr, fun _ _ => trivial⟩
  unfold tenantContext issue
  rw [Prog.wp_bind, Prog.wp_call]
  refine ⟨hbegin _, fun b _ => ?_⟩
  cases b with
  | error err => exact hback _ _
  | ok b =>
    refine Prog.wp_bind.mpr (Prog.wp_call.mpr ⟨hset _, fun r _ => ?_⟩)
    cases r with
    | error err => exact hback _ _
    | ok u =>
      refine Prog.wp_bind.mpr (Prog.wp_mono (h _) fun tr r hr => ?_)
      split
      · rename_i hs
        cases r with
        | error err => exact absurd hs (Nat.not_lt.mpr (responder.refuses err))
        | ok p =>
          refine ⟨hr p rfl, fun c _ => ?_⟩
          cases c with
          | ok c => trivial
          | error err => exact hback _ _
      · exact hback _ _

end

/-- **A request that names a version commits only what it has written back.** -/
theorem call_locks (call : Call) :
    Prog.wp (server.contract (LockAsks call)) [] (server.code call) fun _ _ => True := by
  cases call with
  | tenant actor e =>
    refine wp_tenantContext_commit (fun _ => trivial) (fun _ => trivial) (fun _ => trivial)
      (fun tr => ?_)
    unfold requireRole
    split
    · by_cases he : e.version.isSome
      · exact Svc.wp_mono (wroteBack_service he) fun _ _ h _ => h
      · have hfree : ∀ tr c, (lockContract actor e).asks tr c := by
          intro tr c
          cases c with
          | commit => exact fun h => absurd h he
          | _ => trivial
        exact Prog.wp_of_free hfree fun tr a _ _ => hfree tr .commit
    · exact wp_fail.mpr trivial
  | _ => exact Prog.wp_of_free (fun _ _ => trivial) fun _ _ => trivial

/-! ## In every run -/

/-- The call changes report `k`, of which its client has seen version `v`. -/
def Names (call : Call) (k : UUID) (v : Timestamp) : Prop :=
  ∃ actor e, call = .tenant actor e ∧ e.version = some (k, v)

section

variable {C : World server → Action server → Prop} {d₀ : Database} {w : World server} {i : Nat}
  {s : Session server} {k : UUID} {v : Timestamp}

theorem edits_of_version {e : Endpoint} {x : UUID × Timestamp} (he : e.version = some x) :
    e.edits = none ∧ e.deletes = none := by
  cases e <;> first | exact ⟨rfl, rfl⟩ | cases he

theorem not_permit_of_version {actor : Actor} {tr : Trace} {e : Endpoint} {j : UUID}
    {x : UUID × Timestamp} (he : e.version = some x) : ¬ Permit actor tr j e := by
  obtain ⟨hedits, hdeletes⟩ := edits_of_version he
  intro hp
  cases hp with
  | edit he' hd => exact nomatch hedits.symm.trans he'
  | delete he' hd => exact nomatch hdeletes.symm.trans he'
  | copy hc => cases he

/-- What such a call writes is the report it names, which it has read under that version. -/
theorem named_of_writing (h : Reachable C (.init d₀) w) (hs : w.sessions[i]? = some s)
    {actor : Actor} {e : Endpoint} (hcall : s.call = .tenant actor e)
    (he : e.version = some (k, v)) {q : Stmt} {t : Txn server} {x : Version}
    (hx : Writing w.db (w.others i) s q t x) : ∃ r r₀ y, x = .report r ∧ r.reportID = k ∧
      ReadReport actor s.trace k r₀ ∧ r₀.updatedAt = v ∧
      (s.view w.db).reports.find k = some y ∧ y.updatedAt = v := by
  have hreport : ∃ r, x = .report r := by
    obtain ⟨snap, o, hw⟩ := hx.writes
    have hm := may_write h hs hx
    rw [hcall] at hm
    cases hm with
    | request hm =>
      cases hm with
      | create => cases he
      | copy hc hq => cases he
      | edit he' hd hq => exact nomatch (edits_of_version he).1.symm.trans he'
      | delete he' hd hq => exact nomatch (edits_of_version he).2.symm.trans he'
      | update hr hu hd hv hc =>
        obtain ⟨_, r', _, _, _, rfl⟩ := reportRows.writes_update hw rfl
        exact ⟨r', rfl⟩
      | status hver hr hv hT hc =>
        obtain ⟨_, r', _, _, _, rfl⟩ := reportRows.writes_update hw rfl
        exact ⟨r', rfl⟩
    | auth hm => cases hm
  obtain ⟨r, rfl⟩ := hreport
  obtain ⟨actor', e', snap, o, hcall', hc⟩ := report_change h hs hx
  cases hcall.symm.trans hcall'
  cases hc with
  | create hnone hr => cases he
  | @update k' params r₀ y r hr hu hd hv hc hy hid hyv hset =>
    cases he
    have hkey := (read_report h hs hr).1
    simp only [reportIs, Bool.and_eq_true, decide_eq_true_eq] at hid
    obtain ⟨_, _, rfl⟩ := setReport_ok hset
    have hyk : y.reportID = k := hid.1.2.trans hkey
    exact ⟨_, r₀, y, rfl, hyk, hr, hv, hyk ▸ Table.find_of_mem hy, hyv.trans hv⟩
  | @status e k' v' r₀ r₁ y r hver hr hv hT hc hy hid hyv hset =>
    cases he.symm.trans hver
    have hkey := (read_report h hs hr).1
    simp only [reportIs, Bool.and_eq_true, decide_eq_true_eq] at hid
    obtain ⟨_, _, _, _, rfl⟩ := setReportStatus_ok hset
    have hyk : y.reportID = k := (hid.1.2.trans hT.key.1).trans hkey
    exact ⟨_, r₀, y, rfl, hyk, hr, hv, hyk ▸ Table.find_of_mem hy,
      hyv.trans (hT.key.2.2.trans hv)⟩
  | delete he' hd hy hid => exact nomatch (edits_of_version he).2.symm.trans he'
  | total hp hy ht hk hset => exact absurd hp (not_permit_of_version he)

/-- Such a call holds no row but that of its report. -/
theorem named_writes (h : Reachable C (.init d₀) w) (hs : w.sessions[i]? = some s)
    (hn : Names s.call k v) : ∀ x ∈ s.writes, x.id = .report k := by
  intro x hx
  refine h.writes_rule (P := fun call (x : Version) => ∀ k v, Names call k v → x.id = .report k)
    (fun {w i o s q t x} hw _ hs hx k v hn => ?_) hs x hx k v hn
  obtain ⟨actor, e, hcall, he⟩ := hn
  obtain ⟨r, _, _, rfl, hk, _⟩ := named_of_writing hw hs hcall he hx
  exact congrArg RowId.report hk

/-- What such a call may make of a committed row: nothing, or a new version of the one it read. -/
def NamedChange (call : Call) (tr : Trace) (key : RowId) (old new : Option Version) : Prop :=
  ∀ actor e k v, call = .tenant actor e → e.version = some (k, v) → new = old ∨
    (key = .report k ∧ ∃ r, old = some (.report r) ∧ ReadReport actor tr k r ∧ r.updatedAt = v)

theorem namedChange_relates (hC : ∀ w a, C w a → DistinctNow d₀ w a)
    (h : Reachable C (.init d₀) w) (hs : w.sessions[i]? = some s) :
    s.Relates (NamedChange s.call s.trace) w.db := by
  refine h.relates (R := NamedChange) (fun _ _ _ _ _ _ _ _ _ _ => Or.inl rfl) ?_ ?_ hs
  · intro call tr evs key old new hrel actor e k v hcall he
    refine (hrel actor e k v hcall he).imp_right ?_
    rintro ⟨hkey, r, hold, hr, hv⟩
    exact ⟨hkey, r, hold, hr.append evs, hv⟩
  · intro w i o s q t x hw _ hs _ hx actor e k v hcall he
    obtain ⟨r, r₀, y, rfl, hk, hr₀, hv, hy, hyv⟩ := named_of_writing hw hs hcall he hx
    have hdb := (read_again hC hw hs hx.txn hr₀ hy (hyv.trans hv.symm)).2
    subst hk
    exact Or.inr ⟨rfl, r₀, get_report.mpr hdb, hr₀, hv⟩

/-- A statement that answers with a row has written it. -/
theorem holds_of_answer (h : Reachable C (.init d₀) w) (hs : w.sessions[i]? = some s)
    {t : Txn server} (ht : s.txn = some t) (hf : t.failed = false) (hw : WroteBack s.trace) :
    ∃ r, Version.report r ∈ s.writes := by
  have hback := (h.backed hs).answers t ht hf
  have hmem : ∀ {vs : List Version} {r : ExpenseReport},
      some r = (vs.filterMap reportRows.unwrap).head? → Version.report r ∈ vs := by
    intro vs r hr
    obtain ⟨x, hx, hxr⟩ := List.mem_filterMap.mp (List.mem_of_mem_head? hr.symm)
    rwa [(reportRows.unwrap_wrap x r).mp hxr] at hx
  rcases hw with ⟨p, r, hev⟩ | ⟨p, r, hev⟩
  · obtain ⟨vs, hmade, hvs⟩ := hback _ _ hev
    exact ⟨r, hvs (hmem hmade)⟩
  · obtain ⟨vs, hmade, hvs⟩ := hback _ _ hev
    exact ⟨r, hvs (hmem hmade)⟩

/--
The commit replaces report `k`, in the version the actor has read and its client
has named, and nothing else.
-/
structure ReplacedNamed (actor : Actor) (tr : Trace) (k : UUID) (v : Timestamp)
    (d d' : Database) : Prop where
  row : ∃ r r', ReadReport actor tr k r ∧ r.updatedAt = v ∧ d.reports.find k = some r ∧
    d'.reports.find k = some r' ∧ r'.updatedAt ≠ v
  frame : ∀ key, key ≠ .report k → d'.get key = d.get key

theorem replacedNamed_of_committing (hC : ∀ w a, C w a → DistinctNow d₀ w a)
    (h : Reachable C (.init d₀) w) (hs : w.sessions[i]? = some s) (hc : s.Committing)
    {actor : Actor} {e : Endpoint} (hcall : s.call = .tenant actor e)
    (he : e.version = some (k, v)) :
    ReplacedNamed actor s.trace k v w.db (s.view w.db) := by
  obtain ⟨⟨cont, hp⟩, t, ht, hf⟩ := hc
  have hn : Names s.call k v := ⟨actor, e, hcall, he⟩
  have hrel := namedChange_relates hC h hs
  have hback : WroteBack s.trace := by
    have hask : LockAsks s.call s.trace .commit := h.asked (fun _ c _ => call_locks c) hs hp
    rw [hcall] at hask
    exact hask (by rw [he]; rfl)
  obtain ⟨r, hr⟩ := holds_of_answer h hs ht hf hback
  have hkey : (Version.report r).id = RowId.report k := named_writes h hs hn _ hr
  have hheld : s.Holds (E := server) (RowId.report k) := hkey ▸ Session.holds_of_mem (E := server) hr
  obtain ⟨u, hu, huk, hget⟩ := Session.get_view_of_holds hheld
  have hst := h.stamped hC stamps_writes
  cases u with
  | report r' =>
    -- The new version bears the time of this transaction, which is on no committed row.
    have hnow : ∀ x, w.db.reports.find k = some x → x.updatedAt ≠ r'.updatedAt := by
      intro x hx heq
      have hown := hst.own i s t hs ht _ hu _ rfl
      exact hst.unused i s t hs ht w.db h.db_mem_history (RowId.report k) (.report x)
        (get_report.mpr hx) (congrArg some (heq.trans hown))
    have hview : (s.view w.db).reports.find k = some r' := get_report.mp (hget w.db)
    refine ⟨?_, fun key hne => ?_⟩
    · rcases hrel (RowId.report k) actor e k v hcall he with hsame | ⟨_, r₀, hold, hr₀, hv⟩
      · have hdb : w.db.reports.find k = some r' := get_report.mp (hsame.symm.trans (hget w.db))
        exact absurd rfl (hnow r' hdb)
      · have hdb := get_report.mp hold
        exact ⟨r₀, r', hr₀, hv, hdb, hview, fun hx => hnow r₀ hdb (hv.trans hx.symm)⟩
    · rcases hrel key actor e k v hcall he with hsame | ⟨hk, _⟩
      · exact hsame
      · exact absurd hk hne
  | _ => cases huk

/-- What optimistic locking promises of a run. -/
structure LosesNoUpdate (w : World server) : Prop where
  /-- What is replaced is the row that was read, in the version that was named. -/
  replaces : ∀ f ∈ w.log, ∀ s, w.sessions[f.sess]? = some s → ∀ actor e k v,
    s.call = .tenant actor e → e.version = some (k, v) →
      ReplacedNamed actor s.trace k v f.pre f.post
  /-- Of all that name one version one at most commits. -/
  once : w.log.Pairwise fun f g => ∀ s t, w.sessions[f.sess]? = some s →
    w.sessions[g.sess]? = some t → ∀ k v, Names s.call k v → ¬ Names t.call k v
  /-- Whoever is told of an error has committed nothing. -/
  refused : ∀ (i : Nat) (s : Session server), w.sessions[i]? = some s → ∀ k v,
    Names s.call k v → ∀ err, s.prog = .ret (.error err) → ∀ f ∈ w.log, f.sess ≠ i

/-- **No update is lost**, when no two transactions start at the same time. -/
theorem losesNoUpdate_of_distinctNow (h : Reachable (DistinctNow d₀) (.init d₀) w) :
    LosesNoUpdate w := by
  have hC : ∀ (w : World server) (a : Action server), DistinctNow d₀ w a → DistinctNow d₀ w a :=
    fun _ _ h => h
  have hreplaces : ∀ f ∈ w.log, ∃ s, w.sessions[f.sess]? = some s ∧ ∀ actor e k v,
      s.call = .tenant actor e → e.version = some (k, v) →
        ReplacedNamed actor s.trace k v f.pre f.post := by
    refine h.traced_entry_rule (J := fun call tr d d' => ∀ actor e k v,
      call = Call.tenant actor e → e.version = some (k, v) → ReplacedNamed actor tr k v d d') ?_
      (fun {w i o s s' d'} hw _ hs hm actor e k v hcall he => ?_)
    · rintro call tr _ d d' ⟨evs, rfl⟩ hJ actor e k v hcall he
      obtain ⟨⟨r, r', hr, hrest⟩, hframe⟩ := hJ actor e k v hcall he
      exact ⟨⟨r, r', hr.append evs, hrest⟩, hframe⟩
    · obtain ⟨⟨r, r', hr, hrest⟩, hframe⟩ :=
        replacedNamed_of_committing hC hw hs hm.committing hcall he
      obtain ⟨evs, htr⟩ := hm.told.trace_prefix
      rw [hm.publishes, ← htr]
      exact ⟨⟨r, r', hr.append evs, hrest⟩, hframe⟩
  have hsame : ∀ f ∈ w.log, ∀ s, w.sessions[f.sess]? = some s → ∀ actor e k v,
      s.call = .tenant actor e → e.version = some (k, v) →
        ReplacedNamed actor s.trace k v f.pre f.post := by
    intro f hf s hs
    obtain ⟨s', hs', hrep⟩ := hreplaces f hf
    cases hs.symm.trans hs'
    exact hrep
  refine ⟨hsame, ?_, ?_⟩
  · refine (h.replaced_once hC stamps_writes).imp_of_mem fun {f g} hf hg hgone => ?_
    rintro s t hs ht k v ⟨actor, e, hcall, he⟩ ⟨actor', e', hcall', he'⟩
    obtain ⟨r, r', _, hv, hpre, hpost, hne⟩ := (hsame f hf s hs actor e k v hcall he).row
    obtain ⟨x, _, _, hxv, hx, _⟩ := (hsame g hg t ht actor' e' k v hcall' he').row
    -- Both replace a version stamped `v`, and there was one only.
    have hxr : Version.report r = Version.report x :=
      h.version_unique hC stamps_writes (h.pre_mem_history f hf) (h.pre_mem_history g hg)
        (k := RowId.report k) (get_report.mpr hpre) (get_report.mpr hx) (congrArg some hv)
        (congrArg some hxv)
    cases hxr
    refine hgone (RowId.report k) (.report r) v (congrArg some hv) ⟨get_report.mpr hpre, ?_⟩
      (get_report.mpr hx)
    intro hsame'
    cases (get_report.mp hsame').symm.trans hpost
    exact hne hv
  · rintro i s hs k v ⟨actor, e, hcall, he⟩ err hp
    exact uncommitted_of_error h hs hcall hp

end

/-- The owner submits their draft and renames it, each naming the version both have seen. -/
def Sample.submitAndRename : List (Action server) :=
  [.start (.tenant owner (.submitReport 1 5)),
    .start (.tenant owner (.updateReport 1
      ⟨"other", ⟨2024, 1, 1⟩, ⟨2024, 1, 2⟩, 5, by decide, by decide⟩))] ++
    turns 1 4 100 ++ turns 0 15 200 ++ turns 1 3 300

/-- The one waits for the other, and is then told of the conflict. -/
theorem losesNoUpdate_of_submitAndRename : ∃ w : World server,
    Reachable (DistinctNow Sample.database) (.init Sample.database) w ∧ w.log.length = 1 ∧
      LosesNoUpdate w := by
  have hrun : ((World.init Sample.database : World server).run (uniqueTimes Sample.database)
      Sample.submitAndRename).any (fun w => w.log.length = 1) = true := by
    decide +kernel
  obtain ⟨w, hw, hlen⟩ := exists_of_run distinctNow_of_uniqueTimes hrun
  exact ⟨w, hw, of_decide_eq_true hlen, losesNoUpdate_of_distinctNow hw⟩

end ExpenseSaas
