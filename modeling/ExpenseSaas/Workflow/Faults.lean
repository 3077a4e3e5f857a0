import ExpenseSaas.ReadCommitted.Answers
import ExpenseSaas.ReadCommitted.Reliance
import ExpenseSaas.Contract.Blame
import ExpenseSaas.Workflow.Locking
import ExpenseSaas.Workflow.Scope

/-!
# Whose fault an internal error is

Whether a lookup can fail whose error is wrapped is a matter of what the other
sessions do in between: the rows it is for might go away, or not be there yet.
`Informed` says why they do not. Users and tenants stay, categories are never
written, and a report that is just created is the session's own.

So the services are told what they rely on, in every run, and
`failed_of_internalError` follows: a request is answered with a status of 500
only if the database or the store has failed it.
-/

namespace ExpenseSaas

open ReadCommitted Sql

/-! ## The users a row refers to -/

/-- The user a row names. -/
def Version.person : Version → Option RowId
  | .report r => some (.user r.userID)
  | .membership m => some (.user m.userID)
  | _ => none

/-- The foreign keys on `user_id` of reports and memberships. -/
def people : Reference where
  parent := Version.person
  Agrees _ _ := True
  later _ _ := trivial

section

variable {C : World server → Action server → Prop} {d₀ : Database} {w : World server} {i : Nat}
  {s s' : Session server} {actor : Actor} {e : Endpoint}

theorem person_found {d : Database} {v : Version} {k : RowId} {u : UUID} (h : people.Holds d)
    (hv : d.get k = some v) (hu : v.person = some (.user u)) : (d.get (.user u)).isSome = true := by
  obtain ⟨p, hp, _⟩ := h k v hv _ hu
  exact Option.isSome_iff_exists.mpr ⟨p, hp⟩

theorem user_of_get {d : Database} {u : UUID} (h : (d.get (.user u)).isSome = true) :
    ∃ x : User, x.userID = u ∧ d.get (.user u) = some (.user x) := by
  obtain ⟨v, hv⟩ := Option.isSome_iff_exists.mp h
  have hid := Database.id_of_get hv
  cases v with
  | user x => exact ⟨x, RowId.user.inj hid, hv⟩
  | _ => cases hid

theorem owned_of_people {d : Database} (h : people.Holds d) : Owned d := by
  intro r hr
  obtain ⟨x, _, hx⟩ := user_of_get (person_found h ((reportRows.mem_rows _ _).mp hr) rfl)
  exact Option.isSome_iff_exists.mpr ⟨x, get_user.mp hx⟩

/-- A membership is created for a user. -/
theorem user_of_membership {q : Stmt} {snap cur : Database} {clock o : Oracle} {m : TenantMembership}
    (h : q.sem.Writes snap cur clock o (.membership m)) : (cur.get (.user m.userID)).isSome = true := by
  obtain rfl := membership_writes h
  obtain ⟨m', hm', hv⟩ := Relation.writes_insert h rfl
  obtain ⟨_, _, hm'⟩ := Except.bind_eq_ok.mp hm'
  obtain ⟨_, huser, _⟩ := Except.bind_eq_ok.mp hm'
  obtain ⟨x, hx⟩ := Option.isSome_iff_exists.mp (references_eq_ok.mp huser)
  exact Option.isSome_iff_exists.mpr ⟨.user x, get_user.mpr hx⟩

/-- **The users that rows name are there**, in every view of every session. -/
theorem people_view (h₀ : people.Holds d₀) (h : Reachable C (.init d₀) w) :
    people.Holds w.db ∧ ∀ (i : Nat) (s : Session server), w.sessions[i]? = some s →
      people.Holds (s.view w.db) := by
  refine people.view h₀ (fun {w i s q t v} _ _ hb hv pk hpk => ?_) h
  obtain ⟨snap, o, hw⟩ := hv.writes
  have hfound : ((s.view w.db).get pk).isSome = true := by
    cases v with
    | report r =>
      cases hpk
      obtain ⟨u, hu⟩ := Option.isSome_iff_exists.mp
        (owner_of_write (report_writes hw) (owned_of_people hb))
      exact Option.isSome_iff_exists.mpr ⟨.user u, get_user.mpr hu⟩
    | membership m =>
      cases hpk
      exact user_of_membership hw
    | _ => cases hpk
  obtain ⟨p, hp⟩ := Option.isSome_iff_exists.mp hfound
  exact ⟨p, hp, trivial⟩

/-! ## What lasts -/

/-- Rows of `d` are in `d'`, and its categories are the same. -/
structure Lasts (d d' : Database) : Prop where
  rows : ∀ k, (d.get k).isSome = true → (d'.get k).isSome = true
  categories : ∀ c, d'.get (.category c) = d.get (.category c)

/-- No session has written a category. -/
theorem free_of_category (h : Reachable C (.init d₀) w) (hs : w.sessions[i]? = some s) (c : UUID) :
    ¬ s.Holds (E := server) (.category c) := by
  rintro ⟨v, hv, hid⟩
  have hnone : ∀ v ∈ s.writes, ∀ x, v ≠ Version.category x := by
    refine h.writes_rule (P := fun (_ : Call) v => ∀ x, v ≠ Version.category x) ?_ hs
    intro w i o s q t v _ _ _ hv x hx
    subst hx
    obtain ⟨snap, o, hw⟩ := hv.writes
    exact not_category_writes hw
  cases v with
  | category x => exact hnone _ hv x rfl
  | _ => cases hid

/-- What is committed lasts in every view. -/
theorem lasts_view (h : Reachable C (.init d₀) w) (hs : w.sessions[i]? = some s) :
    Lasts w.db (s.view w.db) where
  rows k hk := by
    obtain ⟨v, hv⟩ := Option.isSome_iff_exists.mp hk
    obtain ⟨v', hv', _⟩ := kept_respected.relates h hs k v hv
    exact Option.isSome_iff_exists.mpr ⟨v', hv'⟩
  categories c := Session.get_view_of_free (free_of_category h hs c)

/-- What a request has written is part of a report. -/
theorem reportID_of_writes (h : Reachable C (.init d₀) w) (hs : w.sessions[i]? = some s)
    (hcall : s.call = .tenant actor e) : ∀ v ∈ s.writes, ∃ k, v.reportID = some k := by
  have hall := h.writes_rule (P := fun (call : Call) (v : Version) => ∀ actor e, call = .tenant actor e →
    ∃ k, v.reportID = some k) (fun hw _ hs hv actor e hcall => reportID_of_writing hw hs hcall hv) hs
  exact fun v hv => hall v hv actor e hcall

/-- The users a request sees are committed. -/
theorem user_of_view (h : Reachable C (.init d₀) w) (hs : w.sessions[i]? = some s)
    (hcall : s.call = .tenant actor e) (u : UUID) :
    (s.view w.db).get (.user u) = w.db.get (.user u) := by
  have hfree : ¬ s.Holds (E := server) (.user u) := by
    rintro ⟨v, hv, hid⟩
    obtain ⟨k, hk⟩ := reportID_of_writes h hs hcall v hv
    cases v with
    | user x => cases hk
    | _ => cases hid
  exact Session.get_view_of_free hfree

/-! ## What a request is told -/

/-- The category can be chosen in the tenant. -/
def OnOffer (d : Database) (t c : UUID) : Prop :=
  ∃ x, d.get (.category c) = some (.category x) ∧ x.isActive = true ∧
    (x.tenantID = some t ∨ x.tenantID = none)

/-- What a request was told of lasts. -/
structure Informed (d : Database) (s : Session server) (actor : Actor) : Prop where
  user : (d.get (.user actor.userID)).isSome = true
  tenant : (d.get (.tenant actor.tenantID)).isSome = true
  named : ∀ u, Named s.trace u → (d.get (.user u)).isSome = true
  owners : ∀ r, Version.report r ∈ s.writes → (d.get (.user r.userID)).isSome = true
  categories : ∀ t c, CategoryFound s.trace t c → OnOffer d t c

theorem Informed.later {d d' : Database} (h : Informed d s actor) (hl : Lasts d d') : Informed d' s actor where
  user := hl.rows _ h.user
  tenant := hl.rows _ h.tenant
  named u hu := hl.rows _ (h.named u hu)
  owners r hr := hl.rows _ (h.owners r hr)
  categories t c hc := by
    obtain ⟨x, hx, hactive⟩ := h.categories t c hc
    exact ⟨x, (hl.categories c).trans hx, hactive⟩

/-- Whoever an answer names is a user. -/
theorem named_of_answer (h₀ : people.Holds d₀) (h : Reachable C (.init d₀) w)
    (hs : w.sessions[i]? = some s) (hcall : s.call = .tenant actor e) (hI : Informed w.db s actor)
    {q : Stmt} {r : q.Result} (ha : Answer w.db s (.sql q) (.ok r)) {u : UUID} (hu : u ∈ q.people r) :
    (w.db.get (.user u)).isSome = true := by
  have hview := (people_view h₀ h).2 i s hs
  have hfound : ((s.view w.db).get (.user u)).isSome = true → (w.db.get (.user u)).isSome = true := by
    intro hu
    rwa [user_of_view h hs hcall u] at hu
  -- An update names the owner of a row it has written.
  have hwritten : ∀ p, s.pending = some p → ∀ x, (p.done.filterMap reportRows.unwrap).head? = some x →
      (w.db.get (.user x.userID)).isSome = true := by
    intro p hp x hx
    obtain ⟨v, hv, hvx⟩ := List.mem_filterMap.mp (List.mem_of_mem_head? hx)
    obtain rfl := (reportRows.unwrap_wrap v x).mp hvx
    exact hI.owners x ((h.backed hs).pending p hp hv)
  cases q with
  | getReportByID t k =>
    obtain ⟨_, _, _, hr⟩ := ha.of_query rfl
    obtain ⟨x, hx, rfl⟩ : ∃ x, r = some x ∧ x.userID = u := by
      cases r with
      | none => cases hu
      | some x => exact ⟨x, rfl, (List.mem_singleton.mp hu).symm⟩
    obtain ⟨hmem, _⟩ := reportRows.mem_of_first ((Except.ok.inj hr).trans hx)
    exact hfound (person_found hview ((reportRows.mem_rows _ _).mp hmem) rfl)
  | createReport p =>
    obtain ⟨t, o, v, _, hrow, rfl⟩ := ha.of_insert rfl
    have hw : (Stmt.createReport p).sem.Writes w.db (s.view w.db) t.clock o v := Sem.writes_insert.mpr hrow
    obtain ⟨x, _, rfl⟩ := Relation.writes_insert hw rfl
    obtain rfl := List.mem_singleton.mp hu
    obtain ⟨y, hy⟩ := Option.isSome_iff_exists.mp (owner_of_write (report_writes hw) (owned_of_people hview))
    exact hfound (Option.isSome_iff_exists.mpr ⟨.user y, get_user.mpr hy⟩)
  | updateReport p | updateReportStatus p =>
    obtain ⟨p', hp', rfl⟩ := ha.of_update rfl
    obtain ⟨x, hx, rfl⟩ := Option.map_eq_some_iff.mp (Option.mem_toList.mp hu)
    exact hwritten p' hp' x hx
  | listMembershipsByTenantID t =>
    obtain ⟨_, _, _, hr⟩ := ha.of_query rfl
    obtain rfl := Except.ok.inj hr
    obtain ⟨m, hm, rfl⟩ := List.mem_map.mp hu
    have hmem := List.mem_of_mem_filter ((List.perm_insertionSort _ _).mem_iff.mp hm)
    exact hfound (person_found hview ((membershipRows.mem_rows _ _).mp hmem) rfl)
  | _ => cases hu

/-- A category that was found is there. -/
theorem onOffer_of_answer (h : Reachable C (.init d₀) w) (hs : w.sessions[i]? = some s) {t c : UUID}
    {x : Category} (ha : Answer w.db s (.sql (.getCategoryByID t c)) (.ok (some x))) : OnOffer w.db t c := by
  obtain ⟨_, _, _, hr⟩ := ha.of_query rfl
  obtain ⟨hmem, hsel⟩ := categoryRows.mem_of_first (Except.ok.inj hr)
  simp only [Bool.and_eq_true, Bool.or_eq_true, decide_eq_true_eq] at hsel
  obtain ⟨⟨rfl, hactive⟩, htenant⟩ := hsel
  refine ⟨x, ?_, hactive, htenant⟩
  rw [← (lasts_view h hs).categories]
  exact (categoryRows.mem_rows _ _).mp hmem

/-- A request that was told something knows no less. -/
theorem Informed.told (h₀ : people.Holds d₀) (h : Reachable C (.init d₀) w)
    (hs : w.sessions[i]? = some s) (hcall : s.call = .tenant actor e) (hI : Informed w.db s actor)
    (ht : Told w.db s s')
    (howners : ∀ r, Version.report r ∈ s'.writes → (w.db.get (.user r.userID)).isSome = true) :
    Informed w.db s' actor where
  user := hI.user
  tenant := hI.tenant
  named u hu := by
    cases ht with
    | wait hp htr hc => exact hI.named u (htr ▸ hu)
    | answer r hp ha hp' htr hc hpe =>
      obtain ⟨q, res, hev, hu⟩ := hu
      rw [htr, List.mem_append, List.mem_singleton] at hev
      rcases hev with hev | hev
      · exact hI.named u ⟨q, res, hev, hu⟩
      · cases hev
        exact named_of_answer h₀ h hs hcall hI ha hu
  owners := howners
  categories t c hc := by
    cases ht with
    | wait hp htr _ => exact hI.categories t c (htr ▸ hc)
    | answer r hp ha hp' htr _ hpe =>
      obtain ⟨x, hev⟩ := hc
      rw [htr, List.mem_append, List.mem_singleton] at hev
      rcases hev with hev | hev
      · exact hI.categories t c ⟨x, hev⟩
      · cases hev
        exact onOffer_of_answer h hs ha

/-- The owner of a report that is written. -/
theorem owner_of_writing (h₀ : people.Holds d₀) (h : Reachable C (.init d₀) w)
    (hs : w.sessions[i]? = some s) (hcall : s.call = .tenant actor e) {q : Stmt} {t : Txn server}
    {r : ExpenseReport} (hv : Writing w.db (w.others i) s q t (.report r)) :
    (w.db.get (.user r.userID)).isSome = true := by
  obtain ⟨snap, o, hw⟩ := hv.writes
  have hview := (people_view h₀ h).2 i s hs
  obtain ⟨u, hu⟩ := Option.isSome_iff_exists.mp (owner_of_write (report_writes hw) (owned_of_people hview))
  rw [← user_of_view h hs hcall]
  exact Option.isSome_iff_exists.mpr ⟨.user u, get_user.mpr hu⟩

/-- Requests run for users and tenants that are there. -/
def Registered (C : World server → Action server → Prop) (d₀ : Database) : Prop :=
  ∀ {w : World server} {actor : Actor} {e : Endpoint}, Reachable C (.init d₀) w →
    C w (.start (.tenant actor e)) →
    (w.db.get (.user actor.userID)).isSome = true ∧ (w.db.get (.tenant actor.tenantID)).isSome = true

/-- **What a request was told of lasts**, whatever the other sessions do. -/
theorem informed (h₀ : people.Holds d₀) (hreg : Registered C d₀) (h : Reachable C (.init d₀) w)
    (hs : w.sessions[i]? = some s) (hcall : s.call = .tenant actor e) : Informed w.db s actor := by
  refine h.session_rule (P := fun d _ _ (s : Session server) => ∀ actor e, s.call = .tenant actor e → Informed d s actor)
    ?_ ?_ ?_ ?_ i s hs actor e hcall
  · intro w c hw hc actor e hcall
    have hcall : c = .tenant actor e := hcall
    subst hcall
    obtain ⟨huser, htenant⟩ := hreg hw hc
    refine ⟨huser, htenant, fun u hu => ?_, fun r hr => ?_, fun t c hc => ?_⟩
    · obtain ⟨q, r, hev, _⟩ := hu
      exact absurd hev List.not_mem_nil
    · exact absurd hr List.not_mem_nil
    · obtain ⟨x, hev⟩ := hc
      exact absurd hev List.not_mem_nil
  · intro w i o s s' d' hw hc hall hs hm actor e hcall
    rw [hm.told.call_eq] at hcall
    have hI := hall i s hs actor e hcall
    have hI' : Informed w.db s' actor := by
      refine hI.told h₀ hw hs hcall hm.told fun r hr => ?_
      rcases hm.effect.mem_writes hr with hr | ⟨q, t, hv⟩
      · exact hI.owners r hr
      · exact owner_of_writing h₀ hw hs hcall hv
    cases d' with
    | none => exact hI'
    | some d' =>
      obtain rfl : d' = s.view w.db := hm.publishes
      exact hI'.later (lasts_view hw hs)
  · intro w i s s' hw hs hP hb actor e hcall
    have ht : Told w.db s s' := hb.told
    rw [ht.call_eq] at hcall
    have hI := hP actor e hcall
    refine hI.told h₀ hw hs hcall ht fun r hr => ?_
    rw [hb.writes] at hr
    exact absurd hr List.not_mem_nil
  · intro w i j o s s' t d' hw _ hall _ hs ht hm actor e hcall
    rw [hm.publishes]
    exact (hall j t ht actor e hcall).later (lasts_view hw hs)

/-! ## A report that was just created -/

/-- Only one endpoint creates reports. -/
theorem creates_of_created (h : Reachable C (.init d₀) w) (hs : w.sessions[i]? = some s)
    (hcall : s.call = .tenant actor e) {k : UUID} (hk : Created actor s.trace k) :
    ∃ params, e = .createReport params := by
  obtain ⟨p, r, hev, _⟩ := hk
  obtain ⟨pre, post, htr⟩ := List.append_of_mem hev
  have hpre : pre ++ [(⟨.sql (.createReport p), .ok r⟩ : Event Command Command.Resp)] <+: s.trace :=
    ⟨post, by simp [htr]⟩
  have hask : CallRoleAsks s.call pre (.sql (.createReport p)) :=
    h.asked_before (E := server) (fun _ c _ => call_roles c) hs hpre
  rw [hcall] at hask
  rcases hask with ⟨t, ht⟩ | ⟨_, hreads | hissues⟩
  · cases ht
  · cases hreads
  · cases e <;> first
      | exact ⟨_, rfl⟩
      | cases hissues

/-- What a call has written that creates a report is not deleted. -/
theorem live_of_creating (h : Reachable C (.init d₀) w) (hs : w.sessions[i]? = some s)
    {params : CreateReportParams} (hcall : s.call = .tenant actor (.createReport params)) :
    ∀ r, Version.report r ∈ s.writes → r.deletedAt = none := by
  refine h.session_rule (P := fun _ _ _ (s : Session server) => ∀ actor params,
    s.call = .tenant actor (.createReport params) → ∀ r, Version.report r ∈ s.writes → r.deletedAt = none) ?_ ?_ ?_ ?_ i s hs actor params hcall
  · intro w c _ _ actor params _ r hr
    exact absurd hr List.not_mem_nil
  · intro w i o s s' d' hw _ hall hs hm actor params hcall r hr
    rw [hm.told.call_eq] at hcall
    have ih := hall i s hs actor params hcall
    rcases hm.effect.mem_writes hr with hr | ⟨q, t, hv⟩
    · exact ih r hr
    · obtain ⟨actor', e', snap, o', hcall', hc⟩ := report_change hw hs hv
      cases hcall.symm.trans hcall'
      cases hc with
      | create hnone hrow =>
        obtain ⟨_, _, rfl⟩ := reportRow_ok hrow
        rfl
      | status hver => cases hver
      | delete he => cases he
      | @total e k x r hp hx ht hk hset =>
        -- The report is the call's own, so the version before was written by the call too.
        rw [setReportTotalAmount_ok hset]
        show x.deletedAt = none
        cases hp with
        | edit he => cases he
        | delete he => cases he
        | copy hcr =>
          obtain ⟨p, y, hev, rfl, _⟩ := hcr
          obtain ⟨hheld, _⟩ := createdHeld hw hs actor _ t p y hcall hv.txn hv.sound hev
          obtain ⟨v, hv', hid, hget⟩ := Session.get_view_of_holds hheld
          have hx' : (s.view w.db).get (.report y.reportID) = some (.report x) :=
            hk ▸ (reportRows.mem_rows _ _).mp hx
          obtain rfl : v = .report x := Option.some.inj ((hget w.db).symm.trans hx')
          exact ih x hv'
  · intro w i s s' _ _ _ hb actor params _ r hr
    rw [hb.writes] at hr
    exact absurd hr List.not_mem_nil
  · intro w i j o s s' t d' _ _ hall _ _ ht _ actor params hcall
    exact hall j t ht actor params hcall

/-- The report a transaction has created is found. -/
theorem found_of_created (h : Reachable C (.init d₀) w) (hs : w.sessions[i]? = some s)
    (hcall : s.call = .tenant actor e) {t : Txn server} (ht : s.txn = some t) (hf : t.failed = false)
    {k : UUID} (hk : Created actor s.trace k) : ∃ r, (s.view w.db).get (.report k) = some (.report r) ∧
      reportIs actor.tenantID k r = true := by
  obtain ⟨params, rfl⟩ := creates_of_created h hs hcall hk
  obtain ⟨p, x, hev, rfl, _⟩ := hk
  obtain ⟨hheld, _⟩ := createdHeld h hs actor _ t p x hcall ht hf hev
  obtain ⟨v, hv, hid, hget⟩ := Session.get_view_of_holds hheld
  cases v with
  | report r =>
    obtain ⟨actor', e', hcall', htenant⟩ := tenant_of_writes h hs _ hv r.tenantID rfl
    cases hcall.symm.trans hcall'
    refine ⟨r, hget w.db, ?_⟩
    have hkey : r.reportID = x.reportID := RowId.report.inj hid
    simp [reportIs, htenant, hkey, live_of_creating h hs hcall r hv]
  | _ => cases hid

/-! ## Answers -/

theorem Relation.first_ne_none {R : Type} {T : Relation R} {d : Database} {p : R → Bool} {k : RowId}
    {x : R} (hx : d.get k = some (T.wrap x)) (hp : p x = true) : T.first p d ≠ none := by
  intro hnone
  obtain rfl := T.id_of_get hx
  have hmem : x ∈ T.filter p d := List.mem_filter.mpr ⟨(T.mem_rows d x).mpr hx, hp⟩
  rw [List.head?_eq_none_iff.mp hnone] at hmem
  cases hmem

/-- **Every answer is as the services expect it.** -/
theorem expected_of_answer (h₀ : people.Holds d₀) (hreg : Registered C d₀) (h : Reachable C (.init d₀) w)
    (hs : w.sessions[i]? = some s) (hcall : s.call = .tenant actor e) {c : Command} {r : Command.Resp c}
    (ha : Answer w.db s c r) (hf : ¬ Failed s.trace) : Expected actor s.trace c r := by
  -- what the call has been told so far, and rows are never deleted
  have hI := informed h₀ hreg h hs hcall
  have hlast := lasts_view h hs
  cases c with
  | sql q =>
    cases q with
    | getUserByID u =>
      intro hu hr
      subst hr
      obtain ⟨_, _, _, hread⟩ := ha.of_query rfl
      have hfound : (w.db.get (.user u)).isSome = true := by
        rcases hu with hu | rfl
        · exact hI.named u hu
        · exact hI.user
      obtain ⟨x, hx, hget⟩ := user_of_get (hlast.rows _ hfound)
      exact Relation.first_ne_none (T := userRows) hget (decide_eq_true hx) (Except.ok.inj hread)
    | getTenantByID t =>
      intro ht hr
      subst ht hr
      obtain ⟨_, _, _, hread⟩ := ha.of_query rfl
      obtain ⟨v, hv⟩ := Option.isSome_iff_exists.mp (hlast.rows _ hI.tenant)
      have hid := Database.id_of_get hv
      cases v with
      | tenant x =>
        have hx : x.tenantID = actor.tenantID := RowId.tenant.inj hid
        exact Relation.first_ne_none (T := tenantRows) hv (decide_eq_true hx) (Except.ok.inj hread)
      | _ => cases hid
    | getCategoryByID t c =>
      intro hc hr
      subst hr
      obtain ⟨_, _, _, hread⟩ := ha.of_query rfl
      obtain ⟨x, hget, hactive, htenant⟩ := hI.categories t c hc
      rw [← hlast.categories] at hget
      have hid : x.categoryID = c := RowId.category.inj (Database.id_of_get hget)
      refine Relation.first_ne_none (T := categoryRows) hget ?_ (Except.ok.inj hread)
      -- categories are seeded and never change, so the check made before still holds
      simp [hid, hactive, htenant]
    | getReportByID t k =>
      intro ht hk hr
      subst ht hr
      obtain ⟨txn, _, htxn, hread⟩ := ha.of_query rfl
      -- an unfailed call reads inside a sound transaction
      have hopen : txn.failed = false := by
        by_contra hfailed
        obtain ⟨q, err, hev⟩ := h.failedOk hs txn htxn (eq_true_of_ne_false hfailed)
        exact hf ⟨_, Engine.current_subset hev, .sql q err⟩
      -- a report of its own creation is in its own view
      obtain ⟨r, hget, hsel⟩ := found_of_created h hs hcall htxn hopen hk
      exact Relation.first_ne_none (T := reportRows) hget hsel (Except.ok.inj hread)
    | _ => trivial
  | _ => trivial

/-- The services of every session are told what they rely on. -/
theorem relied_of_answer (h₀ : people.Holds d₀) (hreg : Registered C d₀) (h : Reachable C (.init d₀) w)
    (hs : w.sessions[i]? = some s) {c : Command} {k : Command.Resp c → Program Outcome}
    {r : Command.Resp c} (hp : s.prog = .exec c k) (ha : Answer w.db s c r) :
    s.call.relies.gets s.trace c r := by
  cases hcall : s.call with
  | tenant actor e =>
    exact ⟨ha.possible (h.pendingOk hs) hp, fun hf => expected_of_answer h₀ hreg h hs hcall ha hf⟩
  | _ => trivial

/-- **A status of 500 means that the database or the store has failed**, in every interleaving. -/
theorem failed_of_internalError (h₀ : people.Holds d₀) (hreg : Registered C d₀)
    (h : Reachable C (.init d₀) w) (hs : w.sessions[i]? = some s) (hcall : s.call = .tenant actor e)
    {err : GoError} (hp : s.prog = .ret (.error err)) :
    (e.responder.respond err).1 < 500 ∨ Failed s.trace := by
  have hblame : CallBlameless s.call s.trace (.error err) :=
    h.returned_relied (G := Call.relies) (fun _ c _ => call_blameless c)
      (fun hw hs hp ha => relied_of_answer h₀ hreg hw hs hp ha) hs hp
  exact hblame actor e hcall err rfl

end

/-- Whether a request starts for a user and a tenant that are there. -/
def registered (w : World server) : Action server → Bool
  | .start (.tenant actor _) =>
      (w.db.get (.user actor.userID)).isSome && (w.db.get (.tenant actor.tenantID)).isSome
  | _ => true

theorem registered_sound {d₀ : Database} : Registered (fun w a => registered w a = true) d₀ := by
  intro w actor e _ hc
  exact Bool.and_eq_true_iff.mp hc

theorem Sample.people : people.Holds Sample.database := by
  have hfound : ∀ u, (Sample.database.users.find u).isSome = true →
      ∃ p, Sample.database.get (.user u) = some p ∧ True := by
    intro u hu
    obtain ⟨x, hx⟩ := Option.isSome_iff_exists.mp hu
    exact ⟨.user x, get_user.mpr hx, trivial⟩
  intro k v hv pk hpk
  obtain rfl := Database.id_of_get hv
  cases v with
  | report r =>
    cases hpk
    rw [List.mem_singleton.mp ((reportRows.mem_rows _ _).mpr hv)]
    exact hfound _ (by decide)
  | membership m =>
    cases hpk
    have hmem : m ∈ Sample.database.memberships.rows := (membershipRows.mem_rows _ _).mpr hv
    have hall : ∀ m ∈ Sample.database.memberships.rows, (Sample.database.users.find m.userID).isSome = true := by
      decide
    exact hfound _ (hall m hmem)
  | _ => cases hpk

/-- The status session `i` is refused with. -/
def refusedWith (i : Nat) (w : World server) : Option Nat :=
  match w.sessions[i]? with
  | some s => match s.call, s.prog with
    | .tenant _ e, .ret (.error err) => some (e.responder.respond err).1
    | _, _ => none
  | none => none

theorem exists_of_refusedWith {i n : Nat} {w : World server} (h : refusedWith i w = some n) :
    ∃ s actor e err, w.sessions[i]? = some s ∧ s.call = .tenant actor e ∧
      s.prog = .ret (.error err) ∧ (e.responder.respond err).1 = n := by
  unfold refusedWith at h
  split at h
  · rename_i s hs
    split at h
    · rename_i actor e err hcall hprog
      cases h
      exact ⟨s, actor, e, err, hs, hcall, hprog, rfl⟩
    · cases h
  · cases h

/-- The request that comes too late is refused with a conflict, though nothing has failed. -/
theorem failed_of_submitAndRename : ∃ (w : World server) (s : Session server) (actor : Actor)
    (e : Endpoint) (err : GoError), Reachable (fun w a => registered w a = true) (.init Sample.database) w ∧
      w.sessions[1]? = some s ∧ s.call = .tenant actor e ∧ s.prog = .ret (.error err) ∧
      (e.responder.respond err).1 = 409 ∧ ((e.responder.respond err).1 < 500 ∨ Failed s.trace) := by
  have hrun : ((World.init Sample.database : World server).run registered Sample.submitAndRename).any
      (fun w => refusedWith 1 w = some 409) = true := by
    decide +kernel
  obtain ⟨w, hw, href⟩ := exists_of_run (C := fun w a => registered w a = true) (fun _ _ h => h) hrun
  obtain ⟨s, actor, e, err, hs, hcall, hp, hstatus⟩ := exists_of_refusedWith (of_decide_eq_true href)
  exact ⟨w, s, actor, e, err, hw, hs, hcall, hp, hstatus,
    failed_of_internalError Sample.people registered_sound hw hs hcall hp⟩

end ExpenseSaas
