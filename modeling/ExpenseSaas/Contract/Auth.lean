import ExpenseSaas.Contract.Requests

/-!
# What the authentication calls may write

None of these calls runs in one transaction from end to end: what it checks and
what it writes are separate statements, each of which commits by itself. The
contract says which row each write goes back to, and how it was found: `Seen` is
the answer of a transaction that had not written, here one long closed.

`Committed` is a statement that went through on a bare connection, and
`ResetDone` the one transaction of a password reset.
-/

namespace ExpenseSaas

open ReadCommitted Sql

/-! ## The contract -/

/-- The statement was issued on a bare connection, and its own commit was acknowledged. -/
def Committed (tr : Trace) (q : Stmt) : Prop :=
  ∃ pre r b, pre ++ [⟨.commit, .ok b⟩] <+: tr ∧ server.current pre = [⟨.sql q, .ok r⟩]

/-- The stored side of a refresh token was found. -/
def FoundToken (tr : Trace) (jti : UUID) (x : RefreshToken) : Prop :=
  server.Seen tr (.getRefreshTokenByJTI jti) (some x)

/-- A password reset token was found unused. -/
def FoundReset (tr : Trace) (token : String) (x : PasswordResetToken) : Prop :=
  server.Seen tr (.getPasswordResetTokenByHash (.ofText token)) (some x)

/-- The statements of a password reset, all answered, in the order they are issued. -/
def resetEvents (x : PasswordResetToken) (h : PasswordHash) : Trace :=
  [⟨.sql (.updateUserPassword x.userID h), .ok ()⟩, ⟨.sql (.markPasswordResetTokenUsed x.id), .ok ()⟩,
    ⟨.sql (.revokeAllByUserID x.userID), .ok ()⟩]

/-- What an authentication call may write, and what it has found by then. -/
inductive AuthMayWrite (tr : Trace) : Call → Stmt → Prop where
  | createTenant {params} : AuthMayWrite tr (.signup params) (.createTenant params.companyName)
  | createUser {params salt} : AuthMayWrite tr (.signup params)
      (.createUser params.email params.name (.argon2id params.password salt))
  | createMembership {params t u} : AuthMayWrite tr (.signup params) (.createMembership t u .admin)
  | signupToken {params email name h user jti digest expiresAt} :
      (⟨.sql (.createUser email name h), .ok user⟩ : Event Command Command.Resp)
        ∈ server.current tr →
      AuthMayWrite tr (.signup params) (.createRefreshToken jti user.userID digest expiresAt)
  | loginToken {email password user jti digest expiresAt} :
      server.Seen tr (.getUserByEmail email) (some user) →
      verifyPassword password user.passwordHash = .ok true →
      AuthMayWrite tr (.login email password)
        (.createRefreshToken jti user.userID digest expiresAt)
  | rotate {c x} : FoundToken tr c.jti x → x.isRevoked = false →
      AuthMayWrite tr (.refreshToken (.signed c)) (.revokeRefreshToken c.jti)
  | reuse {c x} : FoundToken tr c.jti x → x.isRevoked = true →
      AuthMayWrite tr (.refreshToken (.signed c)) (.revokeAllByUserID x.userID)
  | newToken {c u jti digest expiresAt} : Committed tr (.revokeRefreshToken c.jti) →
      u = c.userID →
      AuthMayWrite tr (.refreshToken (.signed c)) (.createRefreshToken jti u digest expiresAt)
  | logout {c x} : FoundToken tr c.jti x → x.isRevoked = false →
      AuthMayWrite tr (.logout (.signed c)) (.revokeRefreshToken c.jti)
  | requestReset {email u digest expiresAt} : AuthMayWrite tr (.requestPasswordReset email)
      (.createPasswordResetToken u digest expiresAt)
  | resetPassword {token password x salt} : FoundReset tr token x →
      AuthMayWrite tr (.executePasswordReset token password)
        (.updateUserPassword x.userID (.argon2id password salt))
  | resetMark {token password x} : FoundReset tr token x →
      AuthMayWrite tr (.executePasswordReset token password) (.markPasswordResetTokenUsed x.id)
  | resetRevoke {token password x} : FoundReset tr token x →
      AuthMayWrite tr (.executePasswordReset token password) (.revokeAllByUserID x.userID)

/-- A password reset commits all of its statements, or a statement that reads. -/
def MayCommit (tr : Trace) : Call → Prop
  | .executePasswordReset token password =>
      (∃ q r, server.current tr = [⟨.sql q, .ok r⟩] ∧ server.reads q = true) ∨
      ∃ x salt, FoundReset tr token x ∧
        server.current tr = resetEvents x (.argon2id password salt)
  | _ => True

/-- What an authentication call promises about the commands it issues. -/
def AuthAsks (call : Call) (tr : Trace) : Command → Prop
  | .sql q => server.reads q = true ∨ AuthMayWrite tr call q
  | .commit => MayCommit tr call
  | _ => True

/-- The contract of an authentication call. -/
abbrev authContract (call : Call) : Contract Command Command.Resp :=
  server.contract (AuthAsks call)

/-- What has happened by the time the call returns a result. -/
def Succeeded (tr : Trace) : Call → Prop
  | .refreshToken token => ∃ c, token = .signed c ∧ Committed tr (.revokeRefreshToken c.jti)
  | .logout token => ∃ c, token = .signed c ∧ Committed tr (.revokeRefreshToken c.jti)
  | .executePasswordReset token password => ∃ pre x salt, pre ++ [⟨.commit, .ok true⟩] <+: tr ∧
      FoundReset pre token x ∧ server.current pre = resetEvents x (.argon2id password salt)
  | _ => True

/-! ## Histories -/

section

variable {tr tr' : Trace} {q : Stmt}

theorem Committed.mono (h : Committed tr q) (hp : tr <+: tr') : Committed tr' q := by
  obtain ⟨pre, r, b, hpre, hc⟩ := h
  exact ⟨pre, r, b, hpre.trans hp, hc⟩

theorem seen_mono {r : q.Result} (h : server.Seen tr q r) (hp : tr <+: tr') :
    server.Seen tr' q r := by
  obtain ⟨evs, rfl⟩ := hp
  exact h.append evs

end

/-! ## Connections -/

section

variable {α : Type} {call : Call} {tr : Trace} {Q : Trace → α → Prop}

theorem wp_attempt_ok {G : Contract Command Command.Resp} {x : Service α} (h : Svc.wp G tr x Q) :
    Svc.wp G tr (Svc.attempt x) fun tr' r => ∀ a, r = .ok a → Q tr' a :=
  Svc.wp_attempt h

theorem wp_notFoundIs {G : Contract Command Command.Resp} {e : DomainError} {context : String}
    {x : Service α} (h : Svc.wp G tr x Q) : Svc.wp G tr (notFoundIs e context x) Q := by
  unfold notFoundIs
  rw [Svc.wp_bind]
  refine Svc.wp_mono (wp_attempt_ok h) (fun tr' r hr => ?_)
  cases r with
  | ok a => exact Svc.wp_pure.mpr (hr a rfl)
  | error err =>
    dsimp only
    split
    · exact wp_fail.mpr trivial
    · exact Svc.wp_throw.mpr trivial

/-- What the outside answers is all that is added. -/
def IsExt : Command → Prop
  | .ext _ => True
  | _ => False

/-- `tr'` goes on from `tr` with calls to the outside only. -/
def Idle (tr tr' : Trace) : Prop := tr <+: tr' ∧ server.current tr' = server.current tr

theorem wp_exts {x : Service α} (hx : Svc.Only IsExt x) (hQ : ∀ tr' a, Idle tr tr' → Q tr' a) :
    Svc.wp (authContract call) tr x Q := by
  refine Svc.wp_of_only hx (fun tr c hc => ?_) (fun evs hevs a => hQ _ a ⟨List.prefix_append _ _, ?_⟩)
  · cases c <;> first
      | exact hc.elim
      | trivial
  · induction evs using List.reverseRecOn with
    | nil => simp
    | append_singleton evs ev ih =>
      obtain ⟨c, r⟩ := ev
      have hc : IsExt c := hevs ⟨c, r⟩ (by simp)
      cases c with
      | ext x =>
        rw [← List.append_assoc, Engine.current_ext (E := server)]
        exact ih fun v hv => hevs v (by simp [hv])
      | _ => exact hc.elim

theorem current_autocommit {q : Stmt} {b : Except SqlError Unit} {r : Except SqlError q.Result} :
    server.current (tr ++ [⟨.begin, b⟩] ++ [⟨.sql q, r⟩]) = [⟨.sql q, r⟩] := by
  rw [Engine.current_sql (E := server), Engine.current_begin (E := server)]
  rfl

/-- A statement on a bare connection. -/
theorem wp_autocommit {q : Stmt} {Q : Trace → q.Result → Prop}
    (hq : server.reads q = true ∨ ∀ tr', tr <+: tr' → AuthMayWrite tr' call q)
    (hcommit : server.reads q = true ∨ ∀ tr', MayCommit tr' call)
    (hQ : ∀ b r c, server.Possible (.sql q) (.ok r) → Q (tr ++ [⟨.begin, .ok b⟩]
      ++ [⟨.sql q, .ok r⟩] ++ [⟨.commit, .ok c⟩]) r) :
    Svc.wp (authContract call) tr (autocommit q) Q := by
  unfold autocommit ExpenseSaas.call orSqlError
  simp only [Svc.wp_bind, Svc.wp_call, Svc.wp_ofExcept]
  refine ⟨trivial, fun b _ u hu => ?_⟩
  cases b with
  | error e => cases hu
  | ok b =>
    refine ⟨hq.imp_right fun h => h _ (List.prefix_append _ _), fun r hr => ?_⟩
    cases r with
    | error e =>
      simp only [Svc.wp_bind, Svc.wp_call, Svc.wp_throw]
      exact ⟨trivial, fun _ _ => trivial⟩
    | ok r =>
      simp only [Svc.wp_bind, Svc.wp_call, Svc.wp_ofExcept, Svc.wp_pure]
      refine ⟨?_, fun c _ v hv => ?_⟩
      · rcases hcommit with hreads | h
        · cases call with
          | executePasswordReset token password =>
            exact Or.inl ⟨q, r, current_autocommit, hreads⟩
          | _ => trivial
        · exact h _
      · cases c with
        | error e => cases hv
        | ok c => exact hQ b r c hr

/-- A statement that reads, on a bare connection: its answer was seen. -/
theorem wp_read {q : Stmt} {Q : Trace → q.Result → Prop} (hq : server.reads q = true)
    (hQ : ∀ tr' r, tr <+: tr' → server.Seen tr' q r → server.Possible (.sql q) (.ok r) → Q tr' r) :
    Svc.wp (authContract call) tr (autocommit q) Q := by
  refine wp_autocommit (Or.inl hq) (Or.inl hq) (fun b r c hr => ?_)
  refine hQ _ r ?_ ?_ hr
  · rw [List.append_assoc, List.append_assoc]
    exact List.prefix_append _ _
  · exact Engine.Seen.append (Engine.seen_append.mpr (Or.inr ⟨rfl, Engine.clean_append⟩)) _

/-- A statement that writes, on a bare connection: it has committed. -/
theorem wp_write {q : Stmt} {Q : Trace → q.Result → Prop}
    (hq : ∀ tr', tr <+: tr' → AuthMayWrite tr' call q) (hcommit : ∀ tr', MayCommit tr' call)
    (hQ : ∀ tr' r, tr <+: tr' → Committed tr' q → Q tr' r) :
    Svc.wp (authContract call) tr (autocommit q) Q := by
  refine wp_autocommit (Or.inr hq) (Or.inr hcommit) (fun b r c _ => ?_)
  refine hQ _ r ?_ ⟨_, r, c, List.prefix_rfl, ?_⟩
  · rw [List.append_assoc, List.append_assoc]
    exact List.prefix_append _ _
  · exact current_autocommit

theorem wp_withConn {context : String} {body : Service α}
    (h : ∀ tr', tr <+: tr' → Svc.wp (authContract call) tr' body
      fun tr'' a => ∀ r, Q (tr'' ++ [⟨.ext .release, r⟩]) a) :
    Svc.wp (authContract call) tr (withConn context body) Q := by
  unfold withConn ext ExpenseSaas.call
  simp only [Svc.wp_bind, Svc.wp_call, wp_errorf, wp_orFail]
  refine ⟨trivial, fun conn _ _ _ => ?_⟩
  refine Svc.wp_mono (wp_attempt_ok (h _ (List.prefix_append _ _))) (fun tr' r hr => ?_)
  exact ⟨trivial, fun x _ a ha => hr a ha x⟩

/-- A transaction: what its body leaves has to be fit to be committed. -/
theorem wp_withTx {beginContext commitContext : String} {body : Service α}
    (h : ∀ tr', tr <+: tr' → server.current tr' = [] → Svc.wp (authContract call) tr' body
      fun tr'' a => MayCommit tr'' call ∧
        ∀ r, Q (tr'' ++ [⟨.commit, .ok true⟩] ++ [⟨.ext .release, r⟩]) a) :
    Svc.wp (authContract call) tr (withTx beginContext commitContext body) Q := by
  unfold withTx ext ExpenseSaas.call
  simp only [Svc.wp_bind, Svc.wp_call, wp_errorf, wp_orFail]
  refine ⟨trivial, fun conn _ _ _ => ⟨trivial, fun b _ => ?_⟩⟩
  cases b with
  | error e =>
    simp only [Svc.wp_bind, Svc.wp_call, Svc.wp_throw]
    exact ⟨trivial, fun _ _ => trivial⟩
  | ok b =>
    simp only [Svc.wp_bind]
    refine Svc.wp_mono (wp_attempt_ok (h _ ?_ (Engine.current_begin (E := server))))
      (fun tr' r hr => ?_)
    · rw [List.append_assoc]
      exact List.prefix_append _ _
    cases r with
    | error e =>
      simp only [Svc.wp_bind, Svc.wp_call, Svc.wp_throw]
      exact ⟨trivial, fun _ _ => ⟨trivial, fun _ _ => trivial⟩⟩
    | ok a =>
      obtain ⟨hcommit, hQ⟩ := hr a rfl
      unfold commitTx ext ExpenseSaas.call
      simp only [Svc.wp_bind, Svc.wp_call]
      refine ⟨hcommit, fun c _ => ⟨trivial, fun x _ => ?_⟩⟩
      rcases c with e | ok
      · exact Svc.wp_throw.mpr trivial
      · cases ok with
        | false => exact Svc.wp_throw.mpr trivial
        | true => exact Svc.wp_pure.mpr (hQ x)

end

/-! ## Tokens and passwords -/

theorem exts_generateRefreshToken {u : UUID} : Svc.Only IsExt (generateRefreshToken u) :=
  Svc.only_bind (Svc.only_call trivial) fun _ => Svc.only_bind (Svc.only_call trivial) fun _ =>
    Svc.only_bind (Svc.only_call trivial) fun _ =>
      Svc.only_bind (Svc.only_mapError Svc.only_ofExcept) fun _ => Svc.only_pure

theorem exts_generateAccessToken {u t : UUID} {role : Role} :
    Svc.Only IsExt (generateAccessToken u t role) :=
  Svc.only_bind (Svc.only_call trivial) fun _ => Svc.only_bind (Svc.only_call trivial) fun _ =>
    Svc.only_bind (Svc.only_call trivial) fun _ =>
      Svc.only_bind (Svc.only_mapError Svc.only_ofExcept) fun _ => Svc.only_pure

theorem exts_verifyRefreshToken {token : RefreshTokenText} :
    Svc.Only IsExt (verifyRefreshToken token) := by
  refine Svc.only_bind (Svc.only_call trivial) fun _ => ?_
  split
  · exact Svc.only_throw
  · split
    · exact Svc.only_throw
    · split
      · exact Svc.only_throw
      · exact Svc.only_pure

theorem exts_hashPassword {password : String} : Svc.Only IsExt (hashPassword password) := by
  unfold hashPassword
  split
  · exact Svc.only_throw
  · exact Svc.only_bind (Svc.only_call trivial) fun _ =>
      Svc.only_bind (Svc.only_mapError Svc.only_ofExcept) fun _ => Svc.only_pure

/-- A token that verifies is one of ours, and its claims are what it says. -/
theorem wp_verifyRefreshToken {call : Call} {tr : Trace} {token : RefreshTokenText}
    {Q : Trace → RefreshTokenClaims → Prop}
    (hQ : ∀ tr' c, token = .signed c → Idle tr tr' → Q tr' c) :
    Svc.wp (authContract call) tr (verifyRefreshToken token) Q := by
  unfold verifyRefreshToken timeNow
  rw [Svc.wp_bind]
  refine wp_exts (Svc.only_call trivial) (fun tr' now h => ?_)
  cases token with
  | foreign text => exact wp_fail.mpr trivial
  | signed c =>
    dsimp only
    split
    · exact wp_fail.mpr trivial
    · split
      · exact wp_fail.mpr trivial
      · exact Svc.wp_pure.mpr (hQ tr' c rfl h)

/-- The hash of a new password is a hash of that password. -/
theorem wp_hashPassword {call : Call} {tr : Trace} {password : String}
    {Q : Trace → PasswordHash → Prop}
    (hQ : ∀ tr' salt, Idle tr tr' → Q tr' (.argon2id password salt)) :
    Svc.wp (authContract call) tr (hashPassword password) Q := by
  unfold hashPassword
  split
  · exact Svc.wp_throw.mpr trivial
  · rw [Svc.wp_bind]
    refine wp_exts (Svc.only_call trivial) (fun tr' salt h => ?_)
    simp only [Svc.wp_bind, wp_errorf, wp_orFail, Svc.wp_pure]
    exact fun s _ => hQ tr' s h

theorem Idle.trans {tr tr' tr'' : Trace} (h : Idle tr tr') (h' : Idle tr' tr'') : Idle tr tr'' :=
  ⟨h.1.trans h'.1, h'.2.trans h.2⟩

/-- A refresh token is generated, verified and stored. -/
theorem wp_issueRefreshToken {call : Call} {tr : Trace} {db : DBTX} {u : UUID}
    {generate verify save : String} {Q : Trace → RefreshTokenText → Prop}
    (hsave : ∀ tr' jti digest expiresAt token, Idle tr tr' → Svc.wp (authContract call) tr'
      (db.exec (.createRefreshToken jti u digest expiresAt)) fun tr'' _ => Q tr'' token) :
    Svc.wp (authContract call) tr (AuthService.issueRefreshToken db u generate verify save) Q := by
  unfold AuthService.issueRefreshToken RefreshTokenRepo.create timeNow
  simp only [Svc.wp_bind, wp_errorf, Svc.wp_pure]
  refine wp_exts exts_generateRefreshToken (fun tr₁ token h₁ => ?_)
  refine wp_exts exts_verifyRefreshToken (fun tr₂ c h₂ => ?_)
  refine wp_exts (Svc.only_call trivial) (fun tr₃ now h₃ => ?_)
  exact hsave tr₃ _ _ _ token ((h₁.trans h₂).trans h₃)

/-! ## The calls -/

section

variable {tr : Trace}

/-- What is shown of every authentication service. -/
def AuthKeeps {α : Type} (call : Call) (x : Service α) : Prop :=
  Svc.wp (authContract call) [] x fun tr _ => Succeeded tr call

theorem authKeeps_login {email password : String} :
    AuthKeeps (.login email password) (AuthService.login email password) := by
  unfold AuthKeeps AuthService.login UserRepo.getByEmail
  simp only [Svc.wp_bind]
  refine wp_notFoundIs ?_
  simp only [Svc.wp_bind, wp_errorf, wp_orNoRows]
  refine wp_read rfl (fun tr₁ row h₁ hseen _ => ?_)
  rintro user rfl
  split
  · exact wp_fail.mpr trivial
  · exact wp_fail.mpr trivial
  · rename_i hver
    refine wp_withConn (fun tr₂ h₂ => ?_)
    unfold AuthService.loginConn MembershipRepo.getByUserID TenantRepo.getByID
    simp only [Svc.wp_bind, wp_errorf]
    refine wp_notFoundIs ?_
    simp only [Svc.wp_bind, wp_errorf, wp_orNoRows]
    refine wp_read rfl (fun tr₃ _ h₃ _ _ m _ => ?_)
    refine wp_read rfl (fun tr₄ _ h₄ _ _ t _ => ?_)
    refine wp_exts exts_generateAccessToken (fun tr₅ _ h₅ => ?_)
    refine wp_issueRefreshToken (fun tr₆ jti digest expiresAt _ h₆ => ?_)
    have h := (((h₂.trans h₃).trans h₄).trans h₅.1).trans h₆.1
    refine wp_write (fun tr' h' => ?_) (fun _ => trivial) (fun _ _ _ _ => ?_)
    · exact .loginToken (seen_mono hseen (h.trans h')) hver
    · exact Svc.wp_pure.mpr fun _ => trivial

theorem wp_rotate {c : RefreshTokenClaims} {x : RefreshToken} (hx : FoundToken tr c.jti x)
    (hr : x.isRevoked = false) {Q : Trace → AuthResult → Prop}
    (hQ : ∀ tr' a, Committed tr' (.revokeRefreshToken c.jti) → Q tr' a) :
    Svc.wp (authContract (.refreshToken (.signed c))) tr (AuthService.rotate c) Q := by
  unfold AuthService.rotate RefreshTokenRepo.revoke MembershipRepo.getByUserID TenantRepo.getByID
    UserRepo.getByID
  simp only [Svc.wp_bind, wp_errorf, wp_orNoRows]
  refine wp_write (fun tr' h' => .rotate (seen_mono hx h') hr) (fun _ => trivial)
    (fun tr₁ _ h₁ hdone => ?_)
  refine wp_read rfl (fun tr₂ _ h₂ _ _ m _ => ?_)
  refine wp_read rfl (fun tr₃ _ h₃ _ _ t _ => ?_)
  refine wp_read rfl (fun tr₄ _ h₄ _ hposs user huser => ?_)
  -- The user found is the one the token names.
  obtain ⟨d, cl, o, hd⟩ := hposs
  subst huser
  have hu := (userRows.mem_of_first (Except.ok.inj hd)).2
  simp only [decide_eq_true_eq] at hu
  refine wp_exts exts_generateAccessToken (fun tr₅ _ h₅ => ?_)
  refine wp_issueRefreshToken (fun tr₆ jti digest expiresAt _ h₆ => ?_)
  have hdone₆ := hdone.mono ((((h₂.trans h₃).trans h₄).trans h₅.1).trans h₆.1)
  refine wp_write (fun tr' h' => .newToken (hdone₆.mono h') hu) (fun _ => trivial)
    (fun tr₇ _ h₇ _ => ?_)
  exact Svc.wp_pure.mpr (hQ tr₇ _ (hdone₆.mono h₇))

theorem authKeeps_refreshToken {token : RefreshTokenText} :
    AuthKeeps (.refreshToken token) (AuthService.refreshToken token) := by
  unfold AuthKeeps AuthService.refreshToken
  rw [Svc.wp_bind]
  refine wp_verifyRefreshToken (fun tr₁ c hc _ => ?_)
  subst hc
  refine wp_withConn (fun tr₂ _ => ?_)
  unfold AuthService.refreshConn RefreshTokenRepo.getByJTI
  rw [Svc.wp_bind]
  refine wp_notFoundIs ?_
  simp only [Svc.wp_bind, wp_errorf, wp_orNoRows]
  refine wp_read rfl (fun tr₃ row h₃ hseen _ => ?_)
  rintro x rfl
  split
  · rename_i hrev
    rw [Svc.wp_bind]
    refine Svc.wp_mono (wp_attempt_ok (Q := fun _ _ => True) ?_) (fun _ _ _ => wp_fail.mpr trivial)
    unfold RefreshTokenRepo.revokeAllByUserID
    rw [wp_errorf]
    exact wp_write (fun tr' h' => .reuse (seen_mono hseen h') hrev) (fun _ => trivial)
      (fun _ _ _ _ => trivial)
  · rename_i hrev
    refine wp_rotate hseen (by simpa using hrev) (fun tr' a hdone r => ?_)
    exact ⟨c, rfl, hdone.mono (List.prefix_append _ _)⟩

theorem authKeeps_logout {token : RefreshTokenText} :
    AuthKeeps (.logout token) (AuthService.logout token) := by
  unfold AuthKeeps AuthService.logout
  rw [Svc.wp_bind]
  refine wp_verifyRefreshToken (fun tr₁ c hc _ => ?_)
  subst hc
  refine wp_withConn (fun tr₂ _ => ?_)
  unfold AuthService.logoutConn RefreshTokenRepo.getByJTI RefreshTokenRepo.revoke
  rw [Svc.wp_bind]
  refine wp_notFoundIs ?_
  simp only [Svc.wp_bind, wp_errorf, wp_orNoRows]
  refine wp_read rfl (fun tr₃ row h₃ hseen _ => ?_)
  rintro x rfl
  split
  · exact wp_fail.mpr trivial
  · rename_i hrev
    simp only [wp_errorf]
    refine wp_write (fun tr' h' => .logout (seen_mono hseen h') (by simpa using hrev))
      (fun _ => trivial) (fun tr₄ _ _ hdone => ?_)
    exact fun _ => ⟨c, rfl, hdone.mono (List.prefix_append _ _)⟩

theorem authKeeps_requestPasswordReset {email : String} :
    AuthKeeps (.requestPasswordReset email) (AuthService.requestPasswordReset email) := by
  unfold AuthKeeps AuthService.requestPasswordReset
  refine wp_withConn (fun tr₁ _ => ?_)
  unfold AuthService.requestPasswordResetConn UserRepo.getByEmail
  rw [Svc.wp_bind]
  refine Svc.wp_mono (wp_attempt_ok (Q := fun _ _ => True) ?_) (fun tr₂ r _ => ?_)
  · simp only [Svc.wp_bind, wp_errorf, wp_orNoRows]
    exact wp_read rfl (fun _ _ _ _ _ _ _ => trivial)
  · cases r with
    | error e =>
      dsimp only
      split
      · exact Svc.wp_pure.mpr fun _ => trivial
      · exact Svc.wp_throw.mpr trivial
    | ok user =>
      unfold PasswordResetRepo.create timeNow
      simp only [Svc.wp_bind, wp_errorf, wp_orFail, Svc.wp_pure]
      refine wp_exts (Svc.only_call trivial) (fun tr₃ _ _ _ _ => ?_)
      refine wp_exts (Svc.only_call trivial) (fun tr₄ _ _ => ?_)
      exact wp_write (fun _ _ => .requestReset) (fun _ => trivial) (fun _ _ _ _ _ => trivial)

theorem authKeeps_signup {params : SignupParams} :
    AuthKeeps (.signup params) (AuthService.signup params) := by
  unfold AuthKeeps AuthService.signup AuthService.emailTaken UserRepo.getByEmail
  simp only [Svc.wp_bind]
  refine Svc.wp_mono (wp_attempt_ok (Q := fun _ _ => True) ?_) (fun tr₁ r _ => ?_)
  · simp only [Svc.wp_bind, wp_errorf, wp_orNoRows]
    exact wp_read rfl (fun _ _ _ _ _ _ _ => trivial)
  cases r with
  | ok user => exact Svc.wp_pure.mpr (wp_fail.mpr trivial)
  | error e =>
    dsimp only
    split
    swap
    · exact Svc.wp_throw.mpr trivial
    refine Svc.wp_pure.mpr ?_
    rw [if_neg Bool.false_ne_true]
    simp only [Svc.wp_bind, wp_errorf]
    refine wp_hashPassword (fun tr₂ salt h₂ => ?_)
    refine wp_withTx (fun tr₃ h₃ hcur => ?_)
    unfold AuthService.signupTx TenantRepo.create UserRepo.create MembershipRepo.create
    simp only [Svc.wp_bind, wp_errorf]
    refine wp_sql (Or.inr .createTenant) (fun tenant _ => ?_)
    refine Svc.wp_mono (wp_attempt_ok (wp_sql (Or.inr .createUser) (Q := fun tr' user =>
      (⟨.sql (.createUser params.email params.name (.argon2id params.password salt)), .ok user⟩ :
        Event Command Command.Resp) ∈ server.current tr') (fun user _ => ?_)))
      (fun tr₄ r hr => ?_)
    · rw [Engine.current_sql (E := server)]
      exact List.mem_append_right _ (List.mem_singleton_self _)
    cases r with
    | error e =>
      dsimp only
      split
      · exact wp_fail.mpr trivial
      · exact Svc.wp_throw.mpr trivial
    | ok user =>
      have hcr := hr user rfl
      refine Svc.wp_pure.mpr (wp_sql (Or.inr .createMembership) (fun membership _ => ?_))
      refine wp_issueRefreshToken (fun tr₅ jti digest expiresAt _ h₅ => ?_)
      refine wp_sql (Or.inr (@AuthMayWrite.signupToken _ _ _ _ _ user _ _ _ (h₅.2 ▸ ?_))) (fun _ _ => ?_)
      · rw [Engine.current_sql (E := server)]
        exact List.mem_append_left _ hcr
      · refine Svc.wp_pure.mpr ⟨trivial, fun _ => ?_⟩
        exact wp_exts exts_generateAccessToken (fun _ _ _ => Svc.wp_pure.mpr trivial)

theorem authKeeps_executePasswordReset {token password : String} :
    AuthKeeps (.executePasswordReset token password)
      (AuthService.executePasswordReset token password) := by
  unfold AuthKeeps AuthService.executePasswordReset
  refine wp_withConn (fun tr₁ _ => ?_)
  unfold AuthService.executePasswordResetConn PasswordResetRepo.getByTokenHash
  rw [Svc.wp_bind]
  refine wp_notFoundIs ?_
  simp only [Svc.wp_bind, wp_errorf, wp_orNoRows]
  refine wp_read rfl (fun tr₂ row h₂ hseen _ => ?_)
  rintro x rfl
  split
  · exact wp_fail.mpr trivial
  · unfold timeNow
    rw [Svc.wp_bind]
    refine wp_exts (Svc.only_call trivial) (fun tr₃ now h₃ => ?_)
    split
    · exact wp_fail.mpr trivial
    · simp only [Svc.wp_bind, wp_errorf]
      refine wp_hashPassword (fun tr₄ salt h₄ => ?_)
      refine wp_withTx (fun tr₅ h₅ hcur => ?_)
      have hf : FoundReset tr₅ token x := seen_mono hseen ((h₃.1.trans h₄.1).trans h₅)
      unfold AuthService.executePasswordResetTx UserRepo.updatePassword PasswordResetRepo.markUsed
        RefreshTokenRepo.revokeAllByUserID
      simp only [Svc.wp_bind, wp_errorf]
      refine wp_sql (Or.inr (.resetPassword hf)) (fun _ _ => ?_)
      refine wp_sql (Or.inr (.resetMark (hf.append _))) (fun _ _ => ?_)
      refine wp_sql (Or.inr (.resetRevoke ((hf.append _).append _))) (fun _ _ => ?_)
      have hall := ((hf.append [⟨.sql (.updateUserPassword x.userID (.argon2id password salt)),
        .ok ()⟩]).append [⟨.sql (.markPasswordResetTokenUsed x.id), .ok ()⟩]).append
          [⟨.sql (.revokeAllByUserID x.userID), .ok ()⟩]
      have hcur' : server.current (tr₅ ++ [⟨.sql (.updateUserPassword x.userID
          (.argon2id password salt)), .ok ()⟩] ++ [⟨.sql (.markPasswordResetTokenUsed x.id), .ok ()⟩]
          ++ [⟨.sql (.revokeAllByUserID x.userID), .ok ()⟩])
          = resetEvents x (.argon2id password salt) := by
        rw [Engine.current_sql (E := server), Engine.current_sql (E := server),
          Engine.current_sql (E := server), hcur]
        rfl
      refine ⟨Or.inr ⟨x, salt, hall, hcur'⟩, fun r r' => ⟨_, x, salt, ?_, hall, hcur'⟩⟩
      exact (List.prefix_append _ _).trans (List.prefix_append _ _)

end

end ExpenseSaas
