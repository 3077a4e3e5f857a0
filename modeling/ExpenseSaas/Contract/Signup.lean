import ExpenseSaas.Contract.Calls

/-!
# How a signup ends

A signup opens one transaction that adds four rows, and whatever else it does
before only reads. `SignupEnds` says how it ends: with a result after that
transaction was committed, or with an error. An error comes before the commit, or
it is the failure to sign the access token, which is all that is left to do then.

`Disturbed` is what can go wrong in a signup apart from the address being taken.
-/

namespace ExpenseSaas

open ReadCommitted Sql

/-! ## Vocabulary -/

/-- The rows a signup adds, and how they belong together. -/
structure Enrolled (params : SignupParams) (t : Tenant) (u : User) (m : TenantMembership)
    (x : RefreshToken) : Prop where
  companyName : varchar 200 params.companyName = .ok t.companyName
  email : varchar 254 params.email = .ok u.email
  tenantID : m.tenantID = t.tenantID
  userID : m.userID = u.userID
  role : m.role = .admin
  token : x.userID = u.userID

/-- The transaction of a signup, when all of its statements have gone through. -/
def SignupTx (params : SignupParams) (evs : Trace) : Prop :=
  ∃ t u m x h jti digest expiresAt, Enrolled params t u m x ∧ evs =
    [⟨.sql (.createTenant params.companyName), .ok t⟩,
      ⟨.sql (.createUser params.email params.name h), .ok u⟩,
      ⟨.sql (.createMembership t.tenantID u.userID .admin), .ok m⟩,
      ⟨.sql (.createRefreshToken jti u.userID digest expiresAt), .ok x⟩]

/-- The command does not write. -/
def Reading : Command → Prop
  | .sql q => server.reads q = true
  | _ => True

/-- Nothing was written. -/
def Quiet (tr : Trace) : Prop := ∀ ev ∈ tr, Reading ev.1

/-- Nothing that was written has been committed. -/
def Unfinished (tr : Trace) : Prop :=
  ∃ pre evs, tr = pre ++ evs ∧ Quiet pre ∧
    ∀ ev ∈ evs, ev ≠ (⟨.commit, .ok true⟩ : Event Command Command.Resp)

/-- The transaction of the signup has been committed. -/
def SignedUp (params : SignupParams) (tr : Trace) : Prop :=
  ∃ pre, pre ++ [⟨.commit, .ok true⟩] <+: tr ∧ SignupTx params (server.current pre)

/-- A step that failed, other than the addition of a user whose address is taken. -/
inductive Fault : Event Command Command.Resp → Prop where
  | begin {e} : Fault ⟨.begin, .error e⟩
  | commit {e} : Fault ⟨.commit, .error e⟩
  | aborted : Fault ⟨.commit, .ok false⟩
  | sql {q e} : (e = .uniqueViolation → ∀ email name h, q ≠ .createUser email name h) →
      Fault ⟨.sql q, .error e⟩
  | acquire {e} : Fault ⟨.ext .acquire, .error e⟩
  | salt {e} : Fault ⟨.ext .salt, .error e⟩
  | sign {e} : Fault ⟨.ext .sign, .error e⟩

/-- Two readings of the clock are a minute or more apart. -/
def ClockJumps (tr : Trace) : Prop :=
  ∃ t t' : Timestamp, (⟨.ext .timeNow, t⟩ : Event Command Command.Resp) ∈ tr ∧
    (⟨.ext .timeNow, t'⟩ : Event Command Command.Resp) ∈ tr ∧ t + leeway ≤ t'

/-- Something went wrong that has nothing to do with the address. -/
def Disturbed (params : SignupParams) (tr : Trace) : Prop :=
  params.password = "" ∨ (∃ ev ∈ tr, Fault ev) ∨ ClockJumps tr

/-- The statements that add the rows of a signup. -/
def Sql.Stmt.enrols : Stmt → Bool
  | .createTenant _ => true
  | .createUser .. => true
  | .createMembership .. => true
  | .createRefreshToken .. => true
  | _ => false

/-- What a signup promises about its statements and its commits. -/
def SignupAsks (params : SignupParams) (tr : Trace) : Command → Prop
  | .sql q => server.reads q = true ∨ q.enrols = true
  | .commit => Quiet (server.current tr) ∨
      (Unfinished tr ∧ SignupTx params (server.current tr))
  | _ => True

/-- The access token could not be signed after the signup was committed. -/
def SignFailed (params : SignupParams) (tr : Trace) : Prop :=
  ∃ pre err, SignedUp params pre ∧
    pre ++ [(⟨.ext .sign, .error err⟩ : Event Command Command.Resp)] <+: tr

/-- How a signup ends, with nothing left uncommitted. -/
def SignupEnds (params : SignupParams) {α : Type} (tr : Trace) (r : Except GoError α) : Prop :=
  Quiet (server.current tr) ∧ match r with
    | .ok _ => SignedUp params tr
    | .error e => SignFailed params tr ∨
        (Unfinished tr ∧ (e.is .emailAlreadyExists = true ∨ Disturbed params tr))

/-- The contract of a signup. -/
abbrev signupContract (params : SignupParams) : Contract Command Command.Resp :=
  server.contract (SignupAsks params)

/-! ## Histories -/

section

variable {params : SignupParams} {tr tr' : Trace} {ev : Event Command Command.Resp}

theorem quiet_nil : Quiet [] := fun _ h => absurd h List.not_mem_nil

theorem Quiet.append (h : Quiet tr) (hev : Reading ev.1) : Quiet (tr ++ [ev]) := by
  intro x hx
  rcases List.mem_append.mp hx with hx | hx
  · exact h x hx
  · rw [List.mem_singleton.mp hx]
    exact hev

theorem Quiet.unfinished (h : Quiet tr) : Unfinished tr :=
  ⟨tr, [], by simp, h, fun _ hev => absurd hev List.not_mem_nil⟩

theorem Unfinished.append {e : Event Command Command.Resp} (h : Unfinished tr)
    (hev : e ≠ (⟨.commit, .ok true⟩ : Event Command Command.Resp)) : Unfinished (tr ++ [e]) := by
  obtain ⟨pre, evs, rfl, hq, hevs⟩ := h
  refine ⟨pre, evs ++ [e], by simp, hq, fun x hx => ?_⟩
  rcases List.mem_append.mp hx with hx | hx
  · exact hevs x hx
  · rw [List.mem_singleton.mp hx]
    exact hev

theorem Quiet.current (h : Quiet tr) : Quiet (server.current tr) :=
  fun ev hev => h ev (Engine.current_subset (E := server) hev)

theorem SignupTx.not_quiet (h : SignupTx params tr) : ¬ Quiet tr := by
  obtain ⟨t, u, m, x, hash, jti, digest, expiresAt, _, rfl⟩ := h
  intro hq
  exact nomatch hq ⟨.sql (.createTenant params.companyName), .ok t⟩ (by simp)

/-- What is committed is not unfinished. -/
theorem Unfinished.not_signedUp (h : Unfinished tr) : ¬ SignedUp params tr := by
  obtain ⟨pre, evs, rfl, hq, hevs⟩ := h
  rintro ⟨pre', hpre, htx⟩
  obtain ⟨rest, hrest⟩ := hpre
  rcases List.append_eq_append_iff.mp hrest with ⟨as, hpre', _⟩ | ⟨bs, hpre', hevs'⟩
  · -- The commit lies in the part that only reads.
    refine htx.not_quiet fun x hx => hq x ?_
    rw [hpre']
    exact List.mem_append_left _ (List.mem_append_left _ (Engine.current_subset (E := server) hx))
  · cases bs using List.reverseRecOn with
    | nil =>
      simp only [List.append_nil] at hpre'
      refine htx.not_quiet fun x hx => hq x ?_
      rw [← hpre']
      exact List.mem_append_left _ (Engine.current_subset (E := server) hx)
    | append_singleton bs b =>
      rw [← List.append_assoc] at hpre'
      obtain ⟨_, rfl⟩ := List.append_singleton_inj.mp hpre'
      exact hevs _ (by rw [hevs']; simp) rfl

/-- A transaction that only reads does not sign up. -/
theorem not_signedUp_commit (h : ¬ SignedUp params tr) (hq : Quiet (server.current tr)) :
    ¬ SignedUp params (tr ++ [⟨.commit, .ok true⟩]) := by
  rintro ⟨pre, hpre, htx⟩
  rcases List.prefix_concat_iff.mp hpre with heq | hpre
  · obtain ⟨rfl, _⟩ := List.append_singleton_inj.mp heq
    exact htx.not_quiet hq
  · exact h ⟨pre, hpre, htx⟩

theorem SignedUp.append (h : SignedUp params tr) (evs : Trace) : SignedUp params (tr ++ evs) := by
  obtain ⟨pre, hpre, htx⟩ := h
  exact ⟨pre, hpre.trans (List.prefix_append _ _), htx⟩

theorem SignFailed.signedUp (h : SignFailed params tr) : SignedUp params tr := by
  obtain ⟨pre, err, hup, evs, rfl⟩ := h
  rw [List.append_assoc]
  exact hup.append _

theorem Disturbed.append (h : Disturbed params tr) (evs : Trace) : Disturbed params (tr ++ evs) := by
  rcases h with h | ⟨ev, hev, hf⟩ | ⟨t, t', ht, ht', hle⟩
  · exact Or.inl h
  · exact Or.inr (Or.inl ⟨ev, List.mem_append_left _ hev, hf⟩)
  · exact Or.inr (Or.inr ⟨t, t', List.mem_append_left _ ht, List.mem_append_left _ ht', hle⟩)

theorem Fault.disturbed (h : Fault ev) (hev : ev ∈ tr) : Disturbed params tr :=
  Or.inr (Or.inl ⟨ev, hev, h⟩)

end

/-! ## The parts of a signup -/

section

variable {α : Type} {G : Contract Command Command.Resp} {tr : Trace}

@[simp] theorem ends_fail {e : DomainError} {Q : Trace → Except GoError α → Prop} :
    Svc.ends G tr (fail e : Service α) Q ↔ Q tr (.error (.sentinel e)) := Iff.rfl

@[simp] theorem ends_orFail {r : Except GoError α} {Q : Trace → Except GoError α → Prop} :
    Svc.ends G tr (orFail r) Q ↔ Q tr r := Iff.rfl

@[simp] theorem ends_errorf {context : String} {x : Service α}
    {Q : Trace → Except GoError α → Prop} : Svc.ends G tr (errorf context x) Q ↔
      Svc.ends G tr x fun tr' r => Q tr' (r.mapError (.wrap context)) := Svc.ends_mapError

theorem ends_sql {q : Stmt} {Q : Trace → Except GoError q.Result → Prop} (h : G.asks tr (.sql q))
    (hok : ∀ r, G.gets tr (.sql q) (.ok r) → Q (tr ++ [⟨.sql q, .ok r⟩]) (.ok r))
    (herror : ∀ e, Q (tr ++ [⟨.sql q, .error e⟩]) (.error (.sql e))) : Svc.ends G tr (sql q) Q := by
  unfold sql call orSqlError
  rw [Svc.ends_bind, Svc.ends_call]
  refine ⟨h, fun r hr => ?_⟩
  cases r with
  | ok r => exact hok r hr
  | error e => exact herror e

theorem ends_ext {x : Ext} {Q : Trace → Except GoError x.Result → Prop} (h : G.asks tr (.ext x))
    (hQ : ∀ r, G.gets tr (.ext x) r → Q (tr ++ [⟨.ext x, r⟩]) (.ok r)) :
    Svc.ends G tr (ext x) Q := ⟨h, hQ⟩

end

section

variable {params : SignupParams} {tr : Trace}

/-- A statement that reads, on a bare connection. -/
theorem ends_read {q : Stmt} (hq : server.reads q = true) (h : Quiet tr) :
    Svc.ends (signupContract params) tr (autocommit q) fun tr' r => Quiet tr' ∧
      ∀ e, r = .error e → (∃ x, e = .sql x) ∧ ∃ ev ∈ tr', Fault ev := by
  have hnot : ∀ e : SqlError, e = .uniqueViolation → ∀ email name hash,
      q ≠ .createUser email name hash := by
    rintro e _ email name hash rfl
    cases hq
  unfold autocommit ExpenseSaas.call orSqlError
  simp only [Svc.ends_bind, Svc.ends_call]
  refine ⟨trivial, fun b _ => ?_⟩
  have hb : Quiet (tr ++ [⟨.begin, b⟩]) := h.append trivial
  cases b with
  | error e =>
    exact ⟨hb, fun _ he => ⟨⟨e, (Except.error.inj he).symm⟩, _, List.mem_concat_self, .begin⟩⟩
  | ok b =>
    refine ⟨Or.inl hq, fun r _ => ?_⟩
    have hr : Quiet (tr ++ [⟨.begin, .ok b⟩] ++ [⟨.sql q, r⟩]) := hb.append hq
    cases r with
    | error e =>
      simp only [Svc.ends_bind, Svc.ends_call]
      refine ⟨trivial, fun c _ => ⟨hr.append trivial, fun _ he => ?_⟩⟩
      cases he
      exact ⟨⟨e, rfl⟩, ⟨.sql q, .error e⟩, by simp, .sql (hnot e)⟩
    | ok r =>
      simp only [Svc.ends_bind, Svc.ends_call]
      refine ⟨Or.inl ?_, fun c _ => ?_⟩
      · rw [current_autocommit]
        intro ev hev
        rw [List.mem_singleton.mp hev]
        exact hq
      · have hc : Quiet (tr ++ [⟨.begin, .ok b⟩] ++ [⟨.sql q, .ok r⟩] ++ [⟨.commit, c⟩]) :=
          hr.append trivial
        cases c with
        | error e =>
          exact ⟨hc, fun _ he => ⟨⟨e, (Except.error.inj he).symm⟩, _, List.mem_concat_self,
            .commit⟩⟩
        | ok c => exact ⟨hc, fun _ he => nomatch he⟩

/-- The check of the address only reads. -/
theorem ends_emailTaken {email : String} (h : Quiet tr) :
    Svc.ends (signupContract params) tr (AuthService.emailTaken email) fun tr' r => Quiet tr' ∧
      ∀ e, r = .error e → ∃ ev ∈ tr', Fault ev := by
  unfold AuthService.emailTaken UserRepo.getByEmail DBTX.exec
  simp only [Svc.ends_bind, Svc.ends_attempt, ends_errorf]
  refine Svc.ends_mono (ends_read rfl h) (fun tr' r hr => ?_)
  obtain ⟨hq, herror⟩ := hr
  cases r with
  | error e =>
    obtain ⟨⟨x, rfl⟩, hfault⟩ := herror e rfl
    exact ⟨hq, fun _ _ => hfault⟩
  | ok row =>
    cases row with
    | some user => exact ⟨hq, fun _ he => nomatch he⟩
    | none => exact ⟨hq, fun _ he => nomatch he⟩

/-- The hash of a password, if the password is not empty and the salt could be read. -/
theorem ends_hashPassword {password : String} (h : Quiet tr) :
    Svc.ends (signupContract params) tr (hashPassword password) fun tr' r => Quiet tr' ∧
      (∀ hash, r = .ok hash → ∃ salt, hash = .argon2id password salt) ∧
      ∀ e, r = .error e → password = "" ∨ ∃ ev ∈ tr', Fault ev := by
  unfold hashPassword
  split
  · rename_i hempty
    exact ⟨h, ⟨fun _ hr => (by cases hr), fun _ _ => Or.inl hempty⟩⟩
  · rw [Svc.ends_bind]
    refine ends_ext trivial (fun salt _ => ?_)
    simp only [Svc.ends_bind, ends_errorf, ends_orFail]
    have hs : Quiet (tr ++ [⟨.ext .salt, salt⟩]) := h.append trivial
    cases salt with
    | error e =>
      exact ⟨hs, ⟨fun _ hr => (by cases hr), fun _ _ => Or.inr ⟨_, List.mem_concat_self, .salt⟩⟩⟩
    | ok salt => exact ⟨hs, ⟨fun _ hr => (by cases hr; exact ⟨salt, rfl⟩), fun _ he => (by cases he)⟩⟩

/-- Calls to the outside leave the transaction as it is. -/
theorem Unfinished.ext (h : Unfinished tr) {x : Ext} {r : x.Result} :
    Unfinished (tr ++ [⟨.ext x, r⟩]) ∧
      server.current (tr ++ [⟨.ext x, r⟩]) = server.current tr :=
  ⟨h.append nofun, Engine.current_ext (E := server)⟩

theorem ends_generateRefreshToken {u : UUID} (h : Unfinished tr) :
    Svc.ends (signupContract params) tr (generateRefreshToken u) fun tr' r =>
      Unfinished tr' ∧ server.current tr' = server.current tr ∧
      (∀ token, r = .ok token → ∃ c t, token = .signed c ∧
        (⟨.ext .timeNow, t⟩ : Event Command Command.Resp) ∈ tr' ∧
          c.issuedAt = numericDate t ∧ c.expiresAt = numericDate (t + refreshTokenLifetime)) ∧
      ∀ e, r = .error e → ∃ ev ∈ tr', Fault ev := by
  unfold generateRefreshToken timeNow
  simp only [Svc.ends_bind, ends_errorf, ends_orFail]
  refine ends_ext trivial (fun t _ => ?_)
  obtain ⟨h₁, hc₁⟩ := h.ext (x := .timeNow) (r := t)
  refine ends_ext trivial (fun jti _ => ?_)
  obtain ⟨h₂, hc₂⟩ := h₁.ext (x := .newUUID) (r := jti)
  refine ends_ext trivial (fun signed _ => ?_)
  obtain ⟨h₃, hc₃⟩ := h₂.ext (x := .sign) (r := signed)
  have hc := hc₃.trans (hc₂.trans hc₁)
  cases signed with
  | error e =>
    refine ⟨h₃, hc, ⟨fun _ he => ?_, fun _ _ => ⟨_, List.mem_concat_self, .sign⟩⟩⟩
    cases he
  | ok signed =>
    refine ⟨h₃, hc, ⟨fun token ht => ?_, fun _ he => ?_⟩⟩
    · cases ht
      exact ⟨_, t, rfl, by simp, rfl, rfl⟩
    · cases he

/-- Whole seconds lose less than a second. -/
theorem lt_numericDate_add (t : Nat) : t < numericDate t + second :=
  show t < t / 1000000 * 1000000 + 1000000 by omega

/-- A token outlives the leeway by far. -/
theorem le_of_expired {t t' : Nat} (h : numericDate (t + refreshTokenLifetime) + leeway ≤ t') :
    t + leeway ≤ t' := by
  have ht := lt_numericDate_add (t + refreshTokenLifetime)
  have hsecond : second ≤ refreshTokenLifetime := by decide
  have hlater : t ≤ numericDate (t + refreshTokenLifetime) := by omega
  exact Nat.le_trans (Nat.add_le_add_right hlater leeway) h

/-- Whole seconds are not later. -/
theorem numericDate_le (t : Nat) : numericDate t ≤ t := Nat.div_mul_le_self t second

/-- A token that was just generated verifies, unless the clock jumps. -/
theorem ends_verifyRefreshToken {c : RefreshTokenClaims} {t : Timestamp} (h : Unfinished tr)
    (ht : (⟨.ext .timeNow, t⟩ : Event Command Command.Resp) ∈ tr)
    (hi : c.issuedAt = numericDate t) (he : c.expiresAt = numericDate (t + refreshTokenLifetime)) :
    Svc.ends (signupContract params) tr (verifyRefreshToken (.signed c)) fun tr' r =>
      Unfinished tr' ∧ server.current tr' = server.current tr ∧
        ∀ e, r = .error e → Disturbed params tr' := by
  unfold verifyRefreshToken timeNow
  rw [Svc.ends_bind]
  refine ends_ext trivial (fun t' _ => ?_)
  obtain ⟨h', hc'⟩ := h.ext (x := .timeNow) (r := t')
  have hmem : (⟨.ext .timeNow, t⟩ : Event Command Command.Resp) ∈ tr ++ [⟨.ext .timeNow, t'⟩] :=
    List.mem_append_left _ ht
  dsimp only
  split
  · rename_i hexpired
    refine ⟨h', hc', fun _ _ => Or.inr (Or.inr ⟨t, t', hmem, List.mem_concat_self, ?_⟩)⟩
    exact le_of_expired (he ▸ hexpired)
  · split
    · rename_i hfuture
      refine ⟨h', hc', fun _ _ => Or.inr (Or.inr ⟨t', t, List.mem_concat_self, hmem, ?_⟩)⟩
      exact Nat.le_of_lt (lt_of_lt_of_le hfuture (hi ▸ numericDate_le t))
    · exact ⟨h', hc', fun _ he => nomatch he⟩

/-- A refresh token is generated and verified, unless signing fails or the clock jumps. -/
theorem ends_issueRefreshToken {u : UUID} {generate verify save : String}
    {Q : Trace → Except GoError RefreshTokenText → Prop} (h : Unfinished tr)
    (hsave : ∀ tr' jti digest expiresAt token, Unfinished tr' →
      server.current tr' = server.current tr →
      Svc.ends (signupContract params) tr' (errorf save (errorf "refreshTokenRepo.Create"
        (sql (.createRefreshToken jti u digest expiresAt)))) fun tr'' r => match r with
          | .ok _ => Q tr'' (.ok token)
          | .error e => Q tr'' (.error e))
    (herror : ∀ tr' e, Unfinished tr' → Disturbed params tr' → Q tr' (.error e)) :
    Svc.ends (signupContract params) tr
      (AuthService.issueRefreshToken .tx u generate verify save) Q := by
  unfold AuthService.issueRefreshToken RefreshTokenRepo.create timeNow DBTX.exec
  rw [Svc.ends_bind, ends_errorf]
  refine Svc.ends_mono (ends_generateRefreshToken h) (fun tr₁ r hr => ?_)
  obtain ⟨h₁, hc₁, htoken, hfault⟩ := hr
  cases r with
  | error e =>
    obtain ⟨ev, hev, hf⟩ := hfault e rfl
    exact herror _ _ h₁ (hf.disturbed hev)
  | ok token =>
    obtain ⟨c, t, rfl, ht, hi, hx⟩ := htoken token rfl
    show Svc.ends _ tr₁ (_ >>= _) Q
    rw [Svc.ends_bind, ends_errorf]
    refine Svc.ends_mono (@ends_verifyRefreshToken params _ _ _ h₁ ht hi hx)
      (fun tr₂ r hr => ?_)
    obtain ⟨h₂, hc₂, hjump⟩ := hr
    cases r with
    | error e => exact herror _ _ h₂ (hjump e rfl)
    | ok claims =>
      show Svc.ends _ tr₂ (_ >>= _) Q
      rw [Svc.ends_bind]
      refine ends_ext trivial (fun now _ => ?_)
      obtain ⟨h₃, hc₃⟩ := h₂.ext (x := .timeNow) (r := now)
      show Svc.ends _ _ (_ >>= _) Q
      rw [Svc.ends_bind]
      exact Svc.ends_mono (hsave _ _ _ _ _ h₃ (hc₃.trans (hc₂.trans hc₁)))
        (fun tr₄ r hr => by cases r <;> exact hr)

/-- A row that was added is the one the statement made. -/
theorem Relation.eq_of_insert {R : Type} [Inhabited R] {T : Relation R} {x : Except SqlError R}
    {v : Version} {r : R} (h : x.map T.wrap = .ok v) (hr : r = (T.unwrap v).getD default) :
    x = .ok r := by
  cases x with
  | error e => cases h
  | ok y =>
    cases h
    rw [(T.unwrap_wrap _ _).mpr rfl] at hr
    exact congrArg Except.ok hr.symm

/-- The answers of the four statements are rows that belong together. -/
theorem enrolled {t : Tenant} {u : User} {m : TenantMembership} {x : RefreshToken} {jti : UUID}
    {hash : PasswordHash} {digest : Digest} {expiresAt : Timestamp}
    (ht : server.Possible (.sql (.createTenant params.companyName)) (.ok t))
    (hu : server.Possible (.sql (.createUser params.email params.name hash)) (.ok u))
    (hm : server.Possible (.sql (.createMembership t.tenantID u.userID .admin)) (.ok m))
    (hx : server.Possible (.sql (.createRefreshToken jti u.userID digest expiresAt)) (.ok x)) :
    Enrolled params t u m x := by
  obtain ⟨_, _, _, _, ht, hrow⟩ := ht
  obtain ⟨name, hname, ht⟩ := Except.bind_eq_ok.mp (Relation.eq_of_insert ht hrow)
  obtain ⟨_, _, _, _, hu, hrow⟩ := hu
  obtain ⟨email, hemail, hu⟩ := Except.bind_eq_ok.mp (Relation.eq_of_insert hu hrow)
  obtain ⟨_, _, hu⟩ := Except.bind_eq_ok.mp hu
  obtain ⟨_, _, _, _, hm, hrow⟩ := hm
  obtain ⟨_, _, hm⟩ := Except.bind_eq_ok.mp (Relation.eq_of_insert hm hrow)
  obtain ⟨_, _, hm⟩ := Except.bind_eq_ok.mp hm
  obtain ⟨_, _, _, _, hx, hrow⟩ := hx
  obtain ⟨_, _, hx⟩ := Except.bind_eq_ok.mp (Relation.eq_of_insert hx hrow)
  cases ht
  cases hu
  cases hm
  cases hx
  exact ⟨hname, hemail, rfl, rfl, rfl, rfl⟩

/-- The body of the transaction ends with its rows, or fails and says why. -/
structure SignupTxEnds (params : SignupParams) {α : Type} (tr : Trace) (r : Except GoError α) :
    Prop where
  unfinished : Unfinished tr
  rows : ∀ a, r = .ok a → SignupTx params (server.current tr)
  cause : ∀ e, r = .error e → e.is .emailAlreadyExists = true ∨ Disturbed params tr

section

variable {α : Type}

theorem SignupTxEnds.error {e : GoError} (h : Unfinished tr)
    (he : e.is .emailAlreadyExists = true ∨ Disturbed params tr) :
    SignupTxEnds params tr (.error e : Except GoError α) := by
  refine ⟨h, fun _ ha => ?_, fun e' he' => ?_⟩
  · cases ha
  · cases he'
    exact he

/-- A statement other than the addition of the user fails. -/
theorem SignupTxEnds.sql {q : Stmt} {e : SqlError} {err : GoError} (h : Unfinished tr)
    (hq : ∀ email name hash, q ≠ .createUser email name hash) :
    SignupTxEnds params (tr ++ [⟨.sql q, .error e⟩]) (.error err : Except GoError α) :=
  .error (h.append (fun hev => by cases hev))
    (Or.inr ((Fault.sql fun _ => hq).disturbed List.mem_concat_self))

end

/-- The transaction of a signup: its rows, the taken address, or something else that fails. -/
theorem ends_signupTx {salt : Nat} (h : Unfinished tr) (hcur : server.current tr = []) :
    Svc.ends (signupContract params) tr
      (AuthService.signupTx params (.argon2id params.password salt)) (SignupTxEnds params) := by
  unfold AuthService.signupTx TenantRepo.create UserRepo.create MembershipRepo.create DBTX.exec
  simp only [Svc.ends_bind, ends_errorf, Svc.ends_attempt]
  refine ends_sql (Or.inr rfl) (fun t ht => ?_) (fun e => .sql h nofun)
  have h₁ := h.append (e := ⟨.sql (.createTenant params.companyName), .ok t⟩) nofun
  refine ends_sql (Or.inr rfl) (fun u hu => ?_) (fun e => ?_)
  · have h₂ := h₁.append (e := ⟨.sql (.createUser params.email params.name
      (.argon2id params.password salt)), .ok u⟩) nofun
    refine ends_sql (Or.inr rfl) (fun m hm => ?_) (fun e => .sql h₂ nofun)
    have h₃ := h₂.append (e := ⟨.sql (.createMembership t.tenantID u.userID .admin), .ok m⟩)
      nofun
    refine ends_issueRefreshToken h₃ (fun tr' jti digest expiresAt token h' hc => ?_)
      (fun tr' e h' hd => .error h' (Or.inr hd))
    simp only [ends_errorf]
    refine ends_sql (Or.inr rfl) (fun x hx => ?_) (fun e => .sql h' nofun)
    have h₄ := h'.append (e := ⟨.sql (.createRefreshToken jti u.userID digest expiresAt), .ok x⟩)
      nofun
    refine ⟨h₄, fun _ _ => ⟨t, u, m, x, .argon2id params.password salt, jti, digest, expiresAt,
      enrolled ht hu hm hx, ?_⟩, fun e he => nomatch he⟩
    rw [Engine.current_sql (E := server), hc, Engine.current_sql (E := server),
      Engine.current_sql (E := server), Engine.current_sql (E := server), hcur]
    rfl
  · -- The unique index on the address is the one failure with an error of its own.
    have hev := h₁.append (e := ⟨.sql (.createUser params.email params.name
      (.argon2id params.password salt)), .error e⟩) nofun
    simp only [GoError.asSql, Option.some.injEq]
    split
    · exact .error hev (Or.inl rfl)
    · rename_i hne
      exact .error hev (Or.inr ((Fault.sql fun he => absurd he hne).disturbed List.mem_concat_self))

/-- The transaction is committed, or the signup has done nothing. -/
theorem ends_withTx {α : Type} {beginContext commitContext : String} {body : Service α}
    (h : Quiet tr) (hbody : ∀ tr', Unfinished tr' → server.current tr' = [] →
      Svc.ends (signupContract params) tr' body (SignupTxEnds params)) :
    Svc.ends (signupContract params) tr (withTx beginContext commitContext body)
      (SignupEnds params) := by
  unfold withTx ext ExpenseSaas.call
  simp only [Svc.ends_bind, Svc.ends_call, ends_errorf, ends_orFail]
  refine ⟨trivial, fun conn _ => ?_⟩
  have hconn : Quiet (tr ++ [⟨.ext .acquire, conn⟩]) := h.append trivial
  cases conn with
  | error e =>
    exact ⟨hconn.current, Or.inr ⟨hconn.unfinished,
      Or.inr (Fault.acquire.disturbed List.mem_concat_self)⟩⟩
  | ok conn =>
    refine ⟨trivial, fun b _ => ?_⟩
    have hb : Quiet (tr ++ [⟨.ext .acquire, .ok conn⟩] ++ [⟨.begin, b⟩]) := hconn.append trivial
    cases b with
    | error e =>
      simp only [Svc.ends_bind, Svc.ends_call]
      refine ⟨trivial, fun r _ => ?_⟩
      have hr : Quiet (tr ++ [⟨.ext .acquire, .ok conn⟩] ++ [⟨.begin, .error e⟩]
        ++ [⟨.ext .release, r⟩]) := hb.append trivial
      refine ⟨hr.current, Or.inr ⟨hr.unfinished, Or.inr ?_⟩⟩
      exact (Fault.begin.disturbed List.mem_concat_self).append _
    | ok b =>
      simp only [Svc.ends_bind, Svc.ends_attempt]
      refine Svc.ends_mono (hbody _ hb.unfinished (Engine.current_begin (E := server)))
        (fun tr' r hr => ?_)
      cases r with
      | error e =>
        simp only [Svc.ends_bind, Svc.ends_call]
        refine ⟨trivial, fun r _ => ⟨trivial, fun r' _ => ⟨?_, Or.inr ⟨?_, ?_⟩⟩⟩⟩
        · rw [Engine.current_ext (E := server), Engine.current_rollback (E := server)]
          exact quiet_nil
        · exact (hr.unfinished.append (by nofun)).append (by nofun)
        · exact (hr.cause e rfl).imp_right fun hd => (hd.append _).append _
      | ok a =>
        unfold commitTx ext ExpenseSaas.call
        simp only [Svc.ends_bind, Svc.ends_call]
        refine ⟨Or.inr ⟨hr.unfinished, hr.rows a rfl⟩, fun c _ => ⟨trivial, fun r _ => ?_⟩⟩
        have hquiet : Quiet (server.current (tr' ++ [⟨.commit, c⟩] ++ [⟨.ext .release, r⟩])) := by
          rw [Engine.current_ext (E := server), Engine.current_commit (E := server)]
          exact quiet_nil
        cases c with
        | error e =>
          refine ⟨hquiet, Or.inr ⟨(hr.unfinished.append (by nofun)).append (by nofun), Or.inr ?_⟩⟩
          exact (Fault.commit.disturbed List.mem_concat_self).append _
        | ok done =>
          cases done with
          | false =>
            refine ⟨hquiet, Or.inr ⟨(hr.unfinished.append (by nofun)).append (by nofun), Or.inr ?_⟩⟩
            exact (Fault.aborted.disturbed List.mem_concat_self).append _
          | true => exact ⟨hquiet, tr', List.prefix_append _ _, hr.rows a rfl⟩

/-- After the commit only the signature of the access token can fail. -/
theorem ends_generateAccessToken {u t : UUID} {role : Role} (h : SignedUp params tr)
    (hquiet : Quiet (server.current tr)) :
    Svc.ends (signupContract params) tr (generateAccessToken u t role) (SignupEnds params) := by
  unfold generateAccessToken timeNow
  simp only [Svc.ends_bind, ends_errorf, ends_orFail]
  refine ends_ext trivial (fun now _ => ends_ext trivial (fun jti _ =>
    ends_ext trivial (fun signed _ => ?_)))
  have hsigned := (h.append [⟨.ext .timeNow, now⟩]).append [⟨.ext .newUUID, jti⟩]
  have hcur : Quiet (server.current (tr ++ [⟨.ext .timeNow, now⟩] ++ [⟨.ext .newUUID, jti⟩]
      ++ [⟨.ext .sign, signed⟩])) := by
    rw [Engine.current_ext (E := server), Engine.current_ext (E := server),
      Engine.current_ext (E := server)]
    exact hquiet
  cases signed with
  | error e => exact ⟨hcur, Or.inl ⟨_, e, hsigned, List.prefix_rfl⟩⟩
  | ok signed => exact ⟨hcur, hsigned.append _⟩

/-- **A signup is committed as a whole or not at all, whatever fails.** -/
theorem ends_signup : Svc.ends (signupContract params) [] (AuthService.signup params)
    (SignupEnds params) := by
  unfold AuthService.signup
  rw [Svc.ends_bind]
  refine Svc.ends_mono (ends_emailTaken quiet_nil) (fun tr₁ taken htaken => ?_)
  obtain ⟨h₁, hfault⟩ := htaken
  cases taken with
  | error e =>
    obtain ⟨ev, hev, hf⟩ := hfault e rfl
    exact ⟨h₁.current, Or.inr ⟨h₁.unfinished, Or.inr (hf.disturbed hev)⟩⟩
  | ok taken =>
    cases taken with
    | true => exact ⟨h₁.current, Or.inr ⟨h₁.unfinished, Or.inl rfl⟩⟩
    | false =>
      show Svc.ends _ tr₁ (_ >>= _) _
      rw [Svc.ends_bind, ends_errorf]
      refine Svc.ends_mono (ends_hashPassword h₁) (fun tr₂ hash hhash => ?_)
      obtain ⟨h₂, hok, hfault⟩ := hhash
      cases hash with
      | error e =>
        refine ⟨h₂.current, Or.inr ⟨h₂.unfinished, Or.inr ?_⟩⟩
        rcases hfault e rfl with hempty | ⟨ev, hev, hf⟩
        · exact Or.inl hempty
        · exact hf.disturbed hev
      | ok hash =>
        obtain ⟨salt, rfl⟩ := hok hash rfl
        show Svc.ends _ tr₂ (_ >>= _) _
        rw [Svc.ends_bind]
        refine Svc.ends_mono (ends_withTx h₂ fun tr' h hcur => ends_signupTx h hcur)
          (fun tr₃ rows hrows => ?_)
        cases rows with
        | error e => exact hrows
        | ok rows =>
          show Svc.ends _ tr₃ (_ >>= _) _
          rw [Svc.ends_bind, ends_errorf]
          refine Svc.ends_mono (ends_generateAccessToken hrows.2 hrows.1) (fun tr₄ token htoken => ?_)
          cases token with
          | error e => exact htoken
          | ok token => exact htoken

end

/-- What a call asks for, when it is a signup. -/
def CallSignupAsks : Call → Trace → Command → Prop
  | .signup params, tr, c => SignupAsks params tr c
  | _, _, _ => True

/-- How a call ends, when it is a signup. -/
def CallSignupEnds : Call → Trace → Outcome → Prop
  | .signup params, tr, r => SignupEnds params tr r
  | _, _, _ => True

theorem call_signup (call : Call) :
    Prog.wp (server.contract (CallSignupAsks call)) [] (server.code call) (CallSignupEnds call) := by
  cases call with
  | signup params =>
    show Svc.ends _ [] (AuthService.signup params >>= fun a => pure (Payload.auth a)) _
    rw [Svc.ends_bind]
    refine Svc.ends_mono ends_signup (fun tr r hr => ?_)
    cases r with
    | ok a => exact hr
    | error e => exact hr
  | _ => exact Prog.wp_of_free (fun _ _ => trivial) fun _ _ => trivial

end ExpenseSaas
