import ExpenseSaas.Contract.Signup
import ExpenseSaas.ReadCommitted.Unique
import ExpenseSaas.Runs.Kept
import ExpenseSaas.Runs.Schedules

/-!
# Signups, whatever fails

A signup adds four rows in one transaction, so its entries in the log are known
from its history (`Ledger`): as long as it has not committed that transaction
none of them changes anything, and afterwards exactly one does and adds the rows.

The address is looked up before the transaction, where it proves nothing; the
unique index on it decides (`emailIndex`).

A signup that fails leaves nothing behind, with one exception: the access token
is signed after the commit (`SignFailed`). If that fails, the client gets an
error, the account exists, and another try is refused.
-/

namespace ExpenseSaas

open ReadCommitted Sql

/-! ## The address -/

/-- The address of a user. -/
def Version.email : Version → Option String
  | .user u => some u.email
  | _ => none

theorem email_eq_some {v : Version} {x : String} :
    Version.email v = some x ↔ ∃ u, v = .user u ∧ u.email = x := by
  cases v <;> simp [Version.email]

/-- The unique index on the address. -/
def emailIndex : server.Index String where
  value := Version.email
  clash v u x hv hu := by
    obtain ⟨a, rfl, ha⟩ := email_eq_some.mp hv
    obtain ⟨b, rfl, hb⟩ := email_eq_some.mp hu
    simp [Version.clash, ha, hb]
  taken d k v u x hk hv hu := by
    obtain ⟨a, rfl, ha⟩ := email_eq_some.mp hv
    obtain ⟨b, rfl, hb⟩ := email_eq_some.mp hu
    obtain rfl := id_of_server_get hk
    have hmem : b ∈ d.users.rows := (userRows.mem_rows _ _).mpr hk
    refine Bool.or_eq_true_iff.mpr (Or.inr (List.any_eq_true.mpr ⟨b, hmem, ?_⟩))
    simp [ha, hb]

section

variable {C : World server → Action server → Prop} {d₀ : Database} {w : World server} {i : Nat}
  {s : Session server}

/-- A user keeps the address they signed up with. -/
theorem emailIndex_stable : emailIndex.Stable C d₀ := by
  intro w i s q t v hw hs hv hins
  cases v with
  | user u =>
    obtain ⟨snap, o', hwr⟩ := hv.writes
    have hwr : UserWrite snap (s.view w.db) t.clock o' q u := user_writes hwr
    cases hwr with
    | create hu => cases hins
    | @password hash x hx =>
      have hget : server.get (s.view w.db) (.user x.userID) = some (.user x) :=
        (userRows.mem_rows _ _).mp hx
      refine ⟨fun u hu => ?_, fun _ hnone => ?_⟩
      · cases hget.symm.trans hu
        rfl
      · exact nomatch hget.symm.trans hnone
  | _ =>
    refine ⟨fun u hu => ?_, fun h => absurd rfl h⟩
    have hid := id_of_server_get hu
    cases u <;> first
      | rfl
      | cases hid

theorem email_respected : emailIndex.order.Respected C d₀ :=
  Engine.Index.Stable.respected emailIndex_stable

end

/-! ## What a signup has written -/

/-- The row that was added, if it was one. -/
def rowOf : Event Command Command.Resp → Option Version
  | ⟨.sql (.createTenant _), .ok t⟩ => some (.tenant t)
  | ⟨.sql (.createUser ..), .ok u⟩ => some (.user u)
  | ⟨.sql (.createMembership ..), .ok m⟩ => some (.membership m)
  | ⟨.sql (.createRefreshToken ..), .ok x⟩ => some (.refreshToken x)
  | _ => none

/-- As long as the transaction stands, its history says what it has written. -/
def Transcribed (s : Session server) : Prop := ∀ t, s.txn = some t → t.failed = false →
  s.writes = (server.current s.trace).filterMap rowOf

/-- A statement that reads adds no row. -/
theorem rowOf_reads {q : Stmt} {r : Except SqlError q.Result} (h : server.reads q = true) :
    rowOf ⟨.sql q, r⟩ = none := by
  cases q <;> first
    | rfl
    | cases h

theorem rowOf_quiet {tr : Trace} (h : Quiet tr) : tr.filterMap rowOf = [] := by
  refine List.filterMap_eq_nil_iff.mpr fun ev hev => ?_
  obtain ⟨c, r⟩ := ev
  cases c with
  | sql q => exact rowOf_reads (h _ hev)
  | _ => rfl

/-- The answer of a statement that adds a row of a signup is the row. -/
theorem rowOf_insert {q : Stmt} {row : Database → Oracle → Oracle → Except SqlError Version}
    {resp : Version → q.Result} {d : Database} {clock o : Oracle} {v : Version}
    (hq : q.enrols = true) (hsem : q.sem = .insert row resp) (hrow : row d clock o = .ok v) :
    rowOf ⟨.sql q, .ok (resp v)⟩ = some v := by
  have hrows : ∀ {R : Type} [Inhabited R] (T : Relation R) {x : Except SqlError R},
      x.map T.wrap = .ok v → T.wrap ((T.unwrap v).getD default) = v := by
    intro R _ T x hx
    cases x with
    | error e => cases hx
    | ok r =>
      cases hx
      rw [(T.unwrap_wrap _ _).mpr rfl]
      rfl
  cases q
  case createTenant name =>
    cases hsem
    exact congrArg some (hrows tenantRows hrow)
  case createUser email name hash =>
    cases hsem
    exact congrArg some (hrows userRows hrow)
  case createMembership t u role =>
    cases hsem
    exact congrArg some (hrows membershipRows hrow)
  case createRefreshToken jti u digest expiresAt =>
    cases hsem
    exact congrArg some (hrows refreshTokenRows hrow)
  all_goals exact absurd hq Bool.false_ne_true

section

variable {C : World server → Action server → Prop} {d₀ : Database} {w : World server} {i : Nat}
  {s : Session server} {params : SignupParams}

/-- What a signup has issued is a statement that reads or one of its four. -/
theorem asked_of_signup (h : Reachable C (.init d₀) w) (hs : w.sessions[i]? = some s)
    (hcall : s.call = .signup params) {c : Command} {k : Command.Resp c → Program Outcome}
    (hp : s.prog = .exec c k) : SignupAsks params s.trace c := by
  have hask : CallSignupAsks s.call s.trace c :=
    h.asked (fun _ c _ => call_signup c) hs hp
  rw [hcall] at hask
  exact hask

/-- A signup updates nothing. -/
theorem not_update_of_signup {q : Stmt} {targets : Database → List RowId}
    {apply : Database → Database → Oracle → RowId → Option (Except SqlError Version)}
    {resp : List Version → q.Result} (h : server.reads q = true ∨ q.enrols = true) :
    q.sem ≠ .update targets apply resp := by
  intro hq
  rcases h with h | h
  · obtain ⟨read, hread⟩ := Engine.query_of_reads (E := server) h
    exact nomatch hq.symm.trans hread
  · cases q
    case createTenant name => cases hq
    case createUser email name hash => cases hq
    case createMembership t u role => cases hq
    case createRefreshToken jti u digest expiresAt => cases hq
    all_goals exact absurd h Bool.false_ne_true

/-- Whatever a signup writes, it adds. -/
theorem inserts_of_signup (h : Reachable C (.init d₀) w) (hs : w.sessions[i]? = some s)
    (hcall : s.call = .signup params) {q : Stmt} {t : Txn server} {v : Version}
    (hv : Writing w.db (w.others i) s q t v) : server.inserts q = true := by
  obtain ⟨k, hp⟩ := hv.prog
  obtain ⟨snap, o, hw⟩ := hv.writes
  have henrols : q.enrols = true :=
    (show server.reads q = true ∨ q.enrols = true from
      asked_of_signup h hs hcall hp).resolve_left (not_reads_of_writes hw)
  cases q
  case createTenant name => rfl
  case createUser email name hash => rfl
  case createMembership t u role => rfl
  case createRefreshToken jti u digest expiresAt => rfl
  all_goals exact absurd henrols Bool.false_ne_true

theorem Transcribed.of_closed (h : s.txn = none) : Transcribed s := by
  intro t ht
  rw [h] at ht
  cases ht

theorem Transcribed.of_failed {t : Txn server} (h : s.txn = some t) (hf : t.failed = true) :
    Transcribed s := by
  intro t' ht' hf'
  cases h.symm.trans ht'
  exact nomatch hf.symm.trans hf'

/-- A step that adds no row. -/
theorem Transcribed.answered {s' : Session server} (h : Transcribed s) (ht : s'.txn = s.txn)
    (htr : (server.current s'.trace).filterMap rowOf = (server.current s.trace).filterMap rowOf) :
    Transcribed s' := by
  intro t ht' hf
  have hw : s'.writes = s.writes := by
    unfold Session.writes
    rw [ht]
  rw [hw, htr]
  exact h t (ht ▸ ht') hf

theorem transcribed_of_move {o : Oracle} {s' : Session server} {d' : Option Database}
    (h : Reachable C (.init d₀) w) (hs : w.sessions[i]? = some s) (hcall : s.call = .signup params)
    (hr : Transcribed s) (hm : Move w.db (w.others i) o s s' d') : Transcribed s' := by
  have hask : ∀ {q : Stmt} {k}, s.prog = .exec (.sql q) k →
      server.reads q = true ∨ q.enrols = true := fun hp => asked_of_signup h hs hcall hp
  cases hm with
  | begin hp ht =>
    intro t ht' _
    cases ht'
    show [] = (server.current (s.trace ++ [⟨.begin, .ok ()⟩])).filterMap rowOf
    rw [Engine.current_begin (E := server)]
    rfl
  | commit hp ht hf => exact .of_closed rfl
  | abandon hp ht hf => exact .of_closed rfl
  | rollback hp => exact .of_closed rfl
  | ext hp => exact hr.answered rfl (congrArg _ (Engine.current_ext (E := server)))
  | barred hp ht hf => exact .of_failed ht hf
  | @query q k t read r hp ht hf hq hread =>
    refine hr.answered rfl ?_
    have hreads : server.reads q = true := by
      unfold Engine.reads
      rw [hq]
    show (server.current (s.trace ++ [⟨.sql q, .ok r⟩])).filterMap rowOf = _
    rw [Engine.current_sql (E := server), List.filterMap_append, List.filterMap_cons,
      rowOf_reads hreads]
    simp
  | refused hp ht hf he => exact .of_failed (Session.txn_undone ht) rfl
  | @insert q k t row resp v hp ht hf hq hrow hu hc =>
    have henrols : q.enrols = true := by
      refine (hask hp).resolve_left fun hreads => ?_
      obtain ⟨read, hread⟩ := Engine.query_of_reads (E := server) hreads
      exact nomatch hq.symm.trans hread
    intro t' ht' _
    show (s.wrote v).writes = (server.current (s.trace ++ [⟨.sql q, .ok (resp v)⟩])).filterMap rowOf
    rw [Session.writes_wrote ht, Engine.current_sql (E := server), List.filterMap_append,
      hr t ht hf, List.filterMap_cons, rowOf_insert henrols hq hrow]
    rfl
  | snapshot hp ht hf hq hpe => exact absurd hq (not_update_of_signup (hask hp))
  | skip hp ht hf hq hpe hto hl ha => exact absurd hq (not_update_of_signup (hask hp))
  | write hp ht hf hq hpe hto hl ha => exact absurd hq (not_update_of_signup (hask hp))
  | finish hp ht hf hq hpe hto => exact absurd hq (not_update_of_signup (hask hp))

theorem transcribed_of_broken {s' : Session server} (hb : Broken s s') : Transcribed s' := by
  cases hb with
  | @sql q k e hp =>
    cases ht : s.txn with
    | none => exact .of_closed (by simp [Session.undone, Session.answered, ht])
    | some t => exact .of_failed (Session.txn_undone ht) rfl
  | begin e hp => exact .of_closed rfl
  | commit e hp => exact .of_closed rfl
  | rollback e hp => exact .of_closed rfl

/-- **What a signup is about to commit, its history says.** -/
theorem transcribed (h : Reachable C (.init d₀) w) (hs : w.sessions[i]? = some s)
    (hcall : s.call = .signup params) : Transcribed s := by
  refine h.session_rule (P := fun _ _ _ (s : Session server) =>
    ∀ params, s.call = Call.signup params → Transcribed s)
    ?_ ?_ ?_ ?_ i s hs params hcall
  · intro w c _ _ _ _
    exact .of_closed rfl
  · intro w i o s s' d' hw _ hall hs hm params hcall
    rw [hm.told.call_eq] at hcall
    exact transcribed_of_move hw hs hcall (hall i s hs params hcall) hm
  · intro w i s s' _ _ _ hb _ _
    exact transcribed_of_broken hb
  · intro w i j o s s' t d' _ _ hall _ _ ht _
    exact hall j t ht

end

/-! ## What a signup has committed -/

/-- The commit adds the rows of a signup, and nothing else. -/
def Founds (params : SignupParams) (f : Entry server) : Prop :=
  ∃ t u m x, Enrolled params t u m x ∧
    (∀ v ∈ [Version.tenant t, .user u, .membership m, .refreshToken x],
      f.pre.get v.id = none) ∧
    f.post = server.putAll f.pre [.tenant t, .user u, .membership m, .refreshToken x]

/-- No commit of the list changes anything. -/
def Vacuous (es : List (Entry server)) : Prop := ∀ f ∈ es, f.post = f.pre

/-- One commit of the list adds the rows of a signup, the others change nothing. -/
def Founded (params : SignupParams) (es : List (Entry server)) : Prop :=
  ∃ a f b, es = a ++ f :: b ∧ Vacuous a ∧ Founds params f ∧ Vacuous b

/-- The commits of a session. -/
def commitsOf (w : World server) (i : Nat) : List (Entry server) :=
  w.log.filter fun f => f.sess = i

/-- The commits of a signup, as its history tells. -/
def Ledger (params : SignupParams) (es : List (Entry server)) (tr : Trace) : Prop :=
  (¬ SignedUp params tr ∧ Vacuous es) ∨ (SignedUp params tr ∧ Founded params es)

section

variable {C : World server → Action server → Prop} {d₀ : Database} {w : World server} {i : Nat}
  {s : Session server} {params : SignupParams} {es : List (Entry server)} {tr : Trace}

theorem signedUp_append {ev : Event Command Command.Resp}
    (hev : ev ≠ (⟨.commit, .ok true⟩ : Event Command Command.Resp)) :
    SignedUp params (tr ++ [ev]) ↔ SignedUp params tr := by
  refine ⟨?_, fun h => h.append _⟩
  rintro ⟨pre, hpre, htx⟩
  rcases List.prefix_concat_iff.mp hpre with heq | hpre
  · exact absurd (List.append_singleton_inj.mp heq).2.symm hev
  · exact ⟨pre, hpre, htx⟩

theorem Vacuous.append {f : Entry server} (h : Vacuous es) (hf : f.post = f.pre) : Vacuous (es ++ [f]) := by
  intro g hg
  rcases List.mem_append.mp hg with hg | hg
  · exact h g hg
  · rw [List.mem_singleton.mp hg]
    exact hf

theorem Founded.append {f : Entry server} (h : Founded params es) (hf : f.post = f.pre) :
    Founded params (es ++ [f]) := by
  obtain ⟨a, g, b, rfl, ha, hg, hb⟩ := h
  exact ⟨a, g, b ++ [f], by simp, ha, hg, hb.append hf⟩

/-- What is not a commit leaves the ledger as it is. -/
theorem Ledger.told {d : Database} {s s' : Session server} (h : Ledger params es s.trace)
    (ht : Told d s s') (hno : ∀ k, s.prog = .exec .commit k →
      s'.trace ≠ s.trace ++ [⟨.commit, .ok true⟩]) : Ledger params es s'.trace := by
  cases ht with
  | wait hp htr => exact htr ▸ h
  | @answer c k r hp ha hp' htr hc hpe =>
    have hev : (⟨c, r⟩ : Event Command Command.Resp) ≠ ⟨.commit, .ok true⟩ := by
      intro heq
      cases heq
      exact hno k hp htr
    unfold Ledger
    rw [htr, signedUp_append hev]
    exact h

theorem not_signedUp_nil : ¬ SignedUp params [] := by
  rintro ⟨pre, hpre, _⟩
  exact absurd (List.prefix_nil.mp hpre) (by simp)

/-- The rows a signup has written when all its statements have gone through. -/
theorem writes_of_signupTx (hr : Transcribed s) {t : Txn server} (ht : s.txn = some t)
    (hf : t.failed = false) (htx : SignupTx params (server.current s.trace)) :
    ∃ t u m x, Enrolled params t u m x ∧
      s.writes = [.tenant t, .user u, .membership m, .refreshToken x] := by
  obtain ⟨t, u, m, x, hash, jti, digest, expiresAt, henrolled, hevs⟩ := htx
  refine ⟨t, u, m, x, henrolled, ?_⟩
  rw [hr _ ht hf, hevs]
  rfl

/-- A commit of a signup changes nothing, or it is the one that adds the rows. -/
theorem Ledger.commit (h : Reachable C (.init d₀) w) (hs : w.sessions[i]? = some s)
    (hcall : s.call = .signup params) (hl : Ledger params es s.trace) {t : Txn server}
    {k : Except SqlError Bool → Program Outcome} (ht : s.txn = some t) (hf : t.failed = false)
    (hp : s.prog = .exec .commit k) :
    Ledger params (es ++ [⟨i, w.db, s.view w.db⟩]) (s.trace ++ [⟨.commit, .ok true⟩]) := by
  have hr := transcribed h hs hcall
  rcases asked_of_signup h hs hcall hp with hquiet | ⟨hunfinished, htx⟩
  · have hview : s.view w.db = w.db := Session.view_of_writes_nil (by
      rw [hr t ht hf]
      exact rowOf_quiet hquiet)
    rcases hl with ⟨hno, hv⟩ | ⟨hup, hfounded⟩
    · exact Or.inl ⟨not_signedUp_commit hno hquiet, hv.append hview⟩
    · exact Or.inr ⟨hup.append _, hfounded.append hview⟩
  · rcases hl with ⟨_, hv⟩ | ⟨hup, _⟩
    · obtain ⟨t, u, m, x, henrolled, hwrites⟩ := writes_of_signupTx hr ht hf htx
      refine Or.inr ⟨⟨s.trace, List.prefix_rfl, htx⟩, es, _, [], rfl, hv, ?_, nofun⟩
      refine ⟨t, u, m, x, henrolled, ?_, congrArg _ hwrites⟩
      rw [← hwrites]
      exact h.unpublished (P := fun c => c = Call.signup params)
        (fun hw hs hcall hv => inserts_of_signup hw hs hcall hv) hs hcall
    · exact absurd hup hunfinished.not_signedUp

/-- **The history of a signup tells what it has committed.** -/
theorem ledger (h : Reachable C (.init d₀) w) (hs : w.sessions[i]? = some s)
    (hcall : s.call = .signup params) : Ledger params (commitsOf w i) s.trace := by
  refine h.session_rule (P := fun _ log i (s : Session server) => ∀ params,
    s.call = Call.signup params → Ledger params (log.filter fun f => f.sess = i) s.trace)
    ?_ ?_ ?_ ?_ i s hs params hcall
  · intro w c hw _ params _
    refine Or.inl ⟨not_signedUp_nil, fun f hf => ?_⟩
    obtain ⟨hmem, hi⟩ := List.mem_filter.mp hf
    obtain ⟨t, ht, _⟩ := hw.committed_of_log f hmem
    have hlt := (List.getElem?_eq_some_iff.mp ht).1
    exact absurd (of_decide_eq_true hi) (Nat.ne_of_lt hlt)
  · intro w i o s s' d' hw _ hall hs hm params hcall
    rw [hm.told.call_eq] at hcall
    have hl := hall i s hs params hcall
    cases d' with
    | none =>
      simp only [World.moved, Option.map_none, Option.toList_none, List.append_nil]
      exact hl.told hm.told (fun _ _ => hm.not_committed)
    | some d' =>
      obtain ⟨rfl, _, t, k, ht, hf, hp, htr⟩ := hm.publish
      rw [htr]
      simp only [World.moved, Option.map_some, Option.toList_some, List.filter_append,
        List.filter_cons, decide_true, if_true, List.filter_nil]
      exact hl.commit hw hs hcall ht hf hp
  · intro w i s s' hw hs hP hb params hcall
    have ht : Told w.db s s' := hb.told
    rw [ht.call_eq] at hcall
    exact (hP params hcall).told ht (fun _ _ => hb.not_committed)
  · intro w i j o s s' t d' _ _ hall hij _ ht _ params hcall
    rw [List.filter_append, List.filter_cons, if_neg (by simpa using hij), List.filter_nil,
      List.append_nil]
    exact hall j t ht params hcall

end

/-! ## All or nothing -/

/-- The signup has come to its end: with a result, or just not with an access token. -/
def Completes (params : SignupParams) (tr : Trace) (r : Outcome) : Prop :=
  (∃ a, r = .ok a) ∨ SignFailed params tr

/-- **Signup is all or nothing, and an address is taken once.** -/
structure AllOrNothing (w : World server) : Prop where
  /-- A signup that fails before the end leaves nothing, committed or pending, and the error
  is that the address is taken unless something went wrong. -/
  failed : ∀ {i : Nat} {s : Session server} {params e}, w.sessions[i]? = some s →
    s.call = Call.signup params → s.prog = .ret (.error e) → ¬ SignFailed params s.trace →
    s.writes = [] ∧ Vacuous (commitsOf w i) ∧
      (e.is .emailAlreadyExists = true ∨ Disturbed params s.trace)
  /-- One that comes to its end has added one row of each kind, all linked. -/
  completed : ∀ {i : Nat} {s : Session server} {params r}, w.sessions[i]? = some s →
    s.call = Call.signup params → s.prog = .ret r → Completes params s.trace r →
    s.writes = [] ∧ Founded params (commitsOf w i)
  /-- No two come to their end with one address. -/
  unique : ∀ {i j : Nat} {s t : Session server} {params params' r r'}, i ≠ j →
    w.sessions[i]? = some s → s.call = Call.signup params → s.prog = .ret r →
    Completes params s.trace r → w.sessions[j]? = some t → t.call = Call.signup params' →
    t.prog = .ret r' → Completes params' t.trace r' → params.email ≠ params'.email

section

variable {C : World server → Action server → Prop} {d₀ : Database} {w : World server} {i : Nat}
  {s : Session server} {params : SignupParams}

theorem returned_of_signup (h : Reachable C (.init d₀) w) (hs : w.sessions[i]? = some s)
    (hcall : s.call = .signup params) {r : Outcome} (hp : s.prog = .ret r) :
    SignupEnds params s.trace r := by
  have hdone : CallSignupEnds s.call s.trace r :=
    h.returned (fun _ c _ => call_signup c) hs hp
  rw [hcall] at hdone
  exact hdone

/-- A signup that has written nothing since it last began holds nothing. -/
theorem writes_of_quiet (h : Reachable C (.init d₀) w) (hs : w.sessions[i]? = some s)
    (hcall : s.call = .signup params) (hq : Quiet (server.current s.trace)) : s.writes = [] := by
  cases ht : s.txn with
  | none => exact Session.writes_of_closed ht
  | some t =>
    cases hf : t.failed with
    | true => exact h.undoneOk hs t ht hf
    | false => exact (transcribed h hs hcall t ht hf).trans (rowOf_quiet hq)

theorem signedUp_of_completes (h : Reachable C (.init d₀) w) (hs : w.sessions[i]? = some s)
    (hcall : s.call = .signup params) {r : Outcome} (hp : s.prog = .ret r)
    (hr : Completes params s.trace r) : SignedUp params s.trace := by
  rcases hr with ⟨a, rfl⟩ | hr
  · exact (returned_of_signup h hs hcall hp).2
  · exact hr.signedUp

/-- A committed signup is in the log, with its rows. -/
theorem founded_of_signedUp (h : Reachable C (.init d₀) w) (hs : w.sessions[i]? = some s)
    (hcall : s.call = .signup params) (hup : SignedUp params s.trace) :
    Founded params (commitsOf w i) :=
  ((ledger h hs hcall).resolve_left fun hno => hno.1 hup).2

/-- The commit of a signup leaves the address with the new user. -/
theorem Founds.user {f : Entry server} (h : Founds params f) : ∃ u : User,
    varchar 254 params.email = .ok u.email ∧ server.get f.pre (.user u.userID) = none ∧
      server.get f.post (.user u.userID) = some (.user u) := by
  obtain ⟨t, u, m, x, henrolled, hnone, hpost⟩ := h
  refine ⟨u, henrolled.email, hnone (.user u) (by simp), ?_⟩
  rw [hpost]
  simp [Engine.putAll, Database.get_put, Version.id]

/-- No two signups add a user with one address. -/
theorem Founds.email_ne (h₀ : emailIndex.UniqueIn d₀) (h : Reachable C (.init d₀) w)
    {f g : Entry server} {params' : SignupParams} (hf : f ∈ w.log) (hg : g ∈ w.log)
    (hlt : ∀ k, emailIndex.order.le k (server.get f.post k) (server.get g.pre k))
    (hFf : Founds params f) (hFg : Founds params' g) : params.email ≠ params'.email := by
  intro heq
  obtain ⟨u, hu, -, hupost⟩ := hFf.user
  obtain ⟨v, hv, hvpre, hvpost⟩ := hFg.user
  have hemail : u.email = v.email := Except.ok.inj (hu.symm.trans (heq ▸ hv))
  -- Both users are still there, so they are the same one.
  obtain ⟨u', hu', hux⟩ := Engine.Order.Respected.history email_respected h f.post (mem_history_of_mem hf) _ _ hupost
  obtain ⟨v', hv', hvx⟩ := Engine.Order.Respected.history email_respected h g.post (mem_history_of_mem hg) _ _ hvpost
  have hid := h.uniqueIn emailIndex_stable h₀ _ _ u' v' u.email hu' hv' hux
    (hvx.trans (congrArg some hemail.symm))
  -- But then it was there before the later signup added it.
  obtain ⟨x, hx, -⟩ := hlt _ _ hupost
  rw [hid] at hx
  exact nomatch hvpre.symm.trans hx

/-- No two committed signups are for one address. -/
theorem email_ne_of_signedUp (h₀ : emailIndex.UniqueIn d₀) (h : Reachable C (.init d₀) w)
    {j : Nat} {t : Session server} {params' : SignupParams} (hij : i ≠ j)
    (hs : w.sessions[i]? = some s) (hcall : s.call = .signup params)
    (hup : SignedUp params s.trace) (ht : w.sessions[j]? = some t)
    (hcall' : t.call = .signup params') (hup' : SignedUp params' t.trace) :
    params.email ≠ params'.email := by
  obtain ⟨l, f, r, hes, _, hf, _⟩ := founded_of_signedUp h hs hcall hup
  obtain ⟨l', g, r', hes', _, hg, _⟩ := founded_of_signedUp h ht hcall' hup'
  obtain ⟨hfl, hfi⟩ := List.mem_filter.mp (show f ∈ commitsOf w i by rw [hes]; simp)
  obtain ⟨hgl, hgj⟩ := List.mem_filter.mp (show g ∈ commitsOf w j by rw [hes']; simp)
  have hne : f ≠ g := by
    rintro rfl
    exact hij ((of_decide_eq_true hfi).symm.trans (of_decide_eq_true hgj))
  rcases Engine.Order.Respected.ordered email_respected h hfl hgl hne with hlt | hlt
  · exact Founds.email_ne h₀ h hfl hgl hlt hf hg
  · exact (Founds.email_ne h₀ h hgl hfl hlt hg hf).symm

/-- **Signup is all or nothing, whatever fails and however signups interleave.** -/
theorem allOrNothing_of_reachable (h₀ : emailIndex.UniqueIn d₀) (h : Reachable C (.init d₀) w) :
    AllOrNothing w where
  failed hs hcall hp hsign := by
    obtain ⟨hquiet, hend⟩ := returned_of_signup h hs hcall hp
    obtain ⟨hunfinished, hcause⟩ := hend.resolve_left hsign
    have hvacuous := (ledger h hs hcall).resolve_right fun hup => hunfinished.not_signedUp hup.1
    exact ⟨writes_of_quiet h hs hcall hquiet, hvacuous.2, hcause⟩
  completed hs hcall hp hr := ⟨writes_of_quiet h hs hcall (returned_of_signup h hs hcall hp).1,
    founded_of_signedUp h hs hcall (signedUp_of_completes h hs hcall hp hr)⟩
  unique hij hs hcall hp hr ht hcall' hp' hr' :=
    email_ne_of_signedUp h₀ h hij hs hcall (signedUp_of_completes h hs hcall hp hr) ht hcall'
      (signedUp_of_completes h ht hcall' hp' hr')

end

/-! ## Two runs -/

namespace Sample

def founder : SignupParams := ⟨"company", "founder@example", "founder", "password"⟩

/-- Two signups with one address, one after the other. -/
def signupTwice : List (Action server) :=
  [.start (.signup founder)] ++ turns 0 20 100 ++ [.start (.signup founder)] ++ turns 1 3 200

/-- A signup whose access token cannot be signed, and another try. -/
def signupUnsigned : List (Action server) :=
  [.start (.signup founder)] ++ turns 0 19 100 ++
    [.step 0 { Oracle.at 200 with failure := some "the key cannot be read" }] ++
    [.start (.signup founder)] ++ turns 1 3 300

end Sample

theorem Sample.uniqueIn : emailIndex.UniqueIn Sample.database := by
  intro k k' v v' x hv hv' hx hx'
  obtain ⟨a, rfl, rfl⟩ := email_eq_some.mp hx
  obtain ⟨b, rfl, hb⟩ := email_eq_some.mp hx'
  obtain rfl := id_of_server_get hv
  obtain rfl := id_of_server_get hv'
  have hall : ∀ a ∈ Sample.database.users.rows, ∀ b ∈ Sample.database.users.rows,
      b.email = a.email → a.userID = b.userID := by
    decide
  exact congrArg RowId.user
    (hall a ((userRows.mem_rows _ _).mpr hv) b ((userRows.mem_rows _ _).mpr hv') hb)

/-- How a signup by the founder has ended. -/
def founderEnded (ok : Outcome → Bool) (s : Session server) : Bool :=
  match s.call, s.prog with
  | .signup params, .ret r => params = Sample.founder && ok r
  | _, _ => false

theorem founderEnded_eq_true {ok : Outcome → Bool} {s : Session server}
    (h : founderEnded ok s = true) :
    ∃ r, s.call = Call.signup Sample.founder ∧ s.prog = .ret r ∧ ok r = true := by
  unfold founderEnded at h
  split at h
  · rename_i params r hcall hp
    obtain ⟨hparams, hok⟩ := Bool.and_eq_true_iff.mp h
    rw [of_decide_eq_true hparams] at hcall
    exact ⟨r, hcall, hp, hok⟩
  · cases h

/-- The answer is that the address is taken. -/
def addressTaken : Outcome → Bool
  | .error e => e = .sentinel .emailAlreadyExists
  | .ok _ => false

/-- The first signup founds a company, the second is told that the address is taken. -/
theorem allOrNothing_of_signupTwice : ∃ w : World server,
    Reachable (fun _ _ => True) (.init Sample.database) w ∧
      w.sessions.map (founderEnded Except.isOk) = [true, false] ∧
      w.sessions.map (founderEnded addressTaken) = [false, true] ∧ AllOrNothing w := by
  have hrun : ((World.init Sample.database : World server).run (fun _ _ => true)
      Sample.signupTwice).any (fun w => w.sessions.map (founderEnded Except.isOk) = [true, false] &&
        w.sessions.map (founderEnded addressTaken) = [false, true]) = true := by
    decide +kernel
  obtain ⟨w, hw, hret⟩ := exists_of_run (C := fun _ _ => True) (fun _ _ _ => trivial) hrun
  obtain ⟨hok, htaken⟩ := Bool.and_eq_true_iff.mp hret
  exact ⟨w, hw, of_decide_eq_true hok, of_decide_eq_true htaken,
    allOrNothing_of_reachable Sample.uniqueIn hw⟩

/-- **The signup has failed, its company is there, and the retry is refused.** -/
theorem committed_of_signupUnsigned : emailIndex.UniqueIn Sample.database ∧
    ∃ (w : World server) (s t : Session server), Reachable (fun _ _ => True) (.init Sample.database) w ∧
      w.sessions[0]? = some s ∧ s.call = Call.signup Sample.founder ∧
      (∃ e, s.prog = .ret (.error e)) ∧ (∃ f ∈ w.log, f.sess = 0 ∧ f.post ≠ f.pre) ∧
      w.sessions[1]? = some t ∧ t.call = Call.signup Sample.founder ∧
      t.prog = .ret (.error (.sentinel .emailAlreadyExists)) := by
  refine ⟨Sample.uniqueIn, ?_⟩
  have hrun : ((World.init Sample.database : World server).run (fun _ _ => true)
      Sample.signupUnsigned).any (fun w => w.sessions[0]?.any (founderEnded fun r => !r.isOk) &&
        w.sessions[1]?.any (founderEnded addressTaken) && w.log.any fun f => f.sess = 0 &&
          f.post.tenants.rows.length ≠ f.pre.tenants.rows.length) = true := by
    decide +kernel
  obtain ⟨w, hw, hret⟩ := exists_of_run (C := fun _ _ => True) (fun _ _ _ => trivial) hrun
  simp only [Bool.and_eq_true, List.any_eq_true, Option.any_eq_true, decide_eq_true_eq] at hret
  obtain ⟨⟨⟨s, hs, hfailed⟩, t, ht, htaken⟩, f, hf, hi, hrows⟩ := hret
  obtain ⟨r, hcall, hp, hr⟩ := founderEnded_eq_true hfailed
  obtain ⟨r', hcall', hp', hr'⟩ := founderEnded_eq_true htaken
  refine ⟨w, s, t, hw, hs, hcall, ?_, ⟨f, hf, hi, fun h => hrows (by rw [h])⟩, ht, hcall', ?_⟩
  · cases r with
    | ok a => cases hr
    | error e => exact ⟨e, hp⟩
  · cases r' with
    | ok a => cases hr'
    | error e => exact of_decide_eq_true hr' ▸ hp'

end ExpenseSaas
