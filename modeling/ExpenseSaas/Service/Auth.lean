import ExpenseSaas.Postgres.Repository

/-!
# Authentication

`auth_service.go`, with the token generator and verifier and the password hasher
of `domain/auth.go`.

Nothing here runs in a transaction of the request. A service takes a connection
of the owner pool and each statement on it commits by itself, except in `Signup`
and `ExecutePasswordReset`, which open one transaction on a connection of the
same pool. Deferred releases and rollbacks run on every way out.
-/

namespace ExpenseSaas

open ReadCommitted Sql

/-! ## Tokens and passwords -/

/-- A second, in microseconds. -/
def second : Nat := 1000000

/-- `jwt.NewNumericDate`: whole seconds. -/
def numericDate (t : Timestamp) : Timestamp := t / second * second

/-- How long a refresh token lives: 7 days. -/
def refreshTokenLifetime : Nat := 7 * 24 * 3600 * second

/-- How long a password reset token lives: 1 hour. -/
def resetTokenLifetime : Nat := 3600 * second

/-- `jwt.WithLeeway(60*time.Second)`. -/
def leeway : Nat := 60 * second

/-- `GenerateAccessToken`. -/
def generateAccessToken (userID tenantID : UUID) (role : Role) : Service AccessToken := do
  let now ← timeNow
  let jti ← ext .newUUID
  let signed ← ext .sign
  errorf "JWTGenerator.GenerateAccessToken" (orFail signed)
  pure ⟨userID, tenantID, role, jti, numericDate now⟩

/-- `GenerateRefreshToken`. -/
def generateRefreshToken (userID : UUID) : Service RefreshTokenText := do
  let now ← timeNow
  let jti ← ext .newUUID
  let signed ← ext .sign
  errorf "JWTGenerator.GenerateRefreshToken" (orFail signed)
  pure (.signed ⟨userID, jti, numericDate now, numericDate (now + refreshTokenLifetime)⟩)

/-- `VerifyRefreshToken`. -/
def verifyRefreshToken (token : RefreshTokenText) : Service RefreshTokenClaims := do
  let now ← timeNow
  match token with
  | .foreign _ => fail .invalidToken
  | .signed claims =>
      if claims.expiresAt + leeway ≤ now then fail .tokenExpired
      else if now + leeway < claims.issuedAt then fail .invalidToken
      else pure claims

/-- `HashPassword`. -/
def hashPassword (password : String) : Service PasswordHash :=
  if password = "" then throw (.other "password must not be empty")
  else do
    let salt ← ext .salt
    let salt ← errorf "Argon2idHasher.HashPassword" (orFail salt)
    pure (.argon2id password salt)

/-- `VerifyPassword`. -/
def verifyPassword (password : String) : PasswordHash → Except GoError Bool
  | .argon2id p _ => .ok (password = p)
  | .malformed _ =>
      .error (.wrap "Argon2idHasher.VerifyPassword" (.other "hash is not in the correct format"))

/-! ## Connections and transactions -/

section

variable {α : Type}

/-- A connection of the owner pool, released on every way out. -/
def withConn (context : String) (body : Service α) : Service α := do
  let conn ← ext .acquire
  errorf context (orFail conn)
  let r ← Svc.attempt body
  ext .release
  orFail r

/-- The end of a transaction that went through: its connection goes back with the commit. -/
def commitTx (commitContext : String) (a : α) : Service α := do
  let c ← call .commit
  ext .release
  match c with
  | .ok true => pure a
  | .ok false =>
      throw (.wrap commitContext (.other "commit unexpectedly resulted in rollback"))
  | .error e => throw (.wrap commitContext (.sql e))

/-- A transaction on a connection of the owner pool. -/
def withTx (beginContext commitContext : String) (body : Service α) : Service α := do
  let conn ← ext .acquire
  errorf beginContext (orFail conn)
  let b ← call .begin
  match b with
  | .error e => do
      ext .release
      throw (.wrap beginContext (.sql e))
  | .ok _ => do
      let r ← Svc.attempt body
      match r with
      | .ok a => commitTx commitContext a
      | .error e => do
          let _ ← call .rollback
          ext .release
          throw e

/-- `errors.Is(err, ErrResourceNotFound)` becomes `e`, any other error is wrapped. -/
def notFoundIs (e : DomainError) (context : String) (x : Service α) : Service α := do
  let r ← Svc.attempt x
  match r with
  | .ok a => pure a
  | .error err => if err.is .resourceNotFound then fail e else throw (.wrap context err)

end

/-! ## The service -/

structure SignupParams where
  companyName : String
  email : String
  name : String
  password : String
  deriving DecidableEq, Repr

/-- `AuthResult`. -/
structure AuthResult where
  userID : UUID
  userName : String
  email : String
  role : Role
  tenantID : UUID
  tenantName : String
  accessToken : AccessToken
  refreshToken : RefreshTokenText
  deriving DecidableEq, Repr

/-- `UserProfile`. -/
structure UserProfile where
  id : UUID
  name : String
  email : String
  role : Role
  tenantID : UUID
  tenantName : String
  deriving DecidableEq, Repr

/-- `buildAuthResult`. -/
def buildAuthResult (user : User) (tenant : Tenant) (role : Role) (accessToken : AccessToken)
    (refreshToken : RefreshTokenText) : AuthResult :=
  ⟨user.userID, user.name, user.email, role, tenant.tenantID, tenant.companyName, accessToken,
    refreshToken⟩

namespace AuthService

/-- Generate a refresh token for a user and store it. -/
def issueRefreshToken (db : DBTX) (userID : UUID) (generate verify save : String) :
    Service RefreshTokenText := do
  let refreshToken ← errorf generate (generateRefreshToken userID)
  let rtClaims ← errorf verify (verifyRefreshToken refreshToken)
  let now ← timeNow
  let _ ← errorf save (RefreshTokenRepo.create db rtClaims.jti userID
    (.ofRefreshToken refreshToken) (now + refreshTokenLifetime))
  pure refreshToken

/-- The part of `Signup` that runs in its transaction. -/
def signupTx (params : SignupParams) (passwordHash : PasswordHash) :
    Service (Tenant × User × TenantMembership × RefreshTokenText) := do
  let tenant ← errorf "authService.Signup: create tenant" (TenantRepo.create .tx params.companyName)
  let user ← errorf "authService.Signup: create user"
    (UserRepo.create .tx params.email params.name passwordHash)
  let membership ← errorf "authService.Signup: create membership"
    (MembershipRepo.create .tx tenant.tenantID user.userID .admin)
  let refreshToken ← issueRefreshToken .tx user.userID "authService.Signup: generate refresh token"
    "authService.Signup: verify refresh token" "authService.Signup: save refresh token"
  pure (tenant, user, membership, refreshToken)

/-- Whether an account with this address exists. -/
def emailTaken (email : String) : Service Bool := do
  let existing ← Svc.attempt (UserRepo.getByEmail .conn email)
  match existing with
  | .ok _ => pure true
  | .error e =>
      if e.is .resourceNotFound then pure false
      else throw (.wrap "authService.Signup: check email" e)

/-- `Signup`. -/
def signup (params : SignupParams) : Service AuthResult := do
  let taken ← emailTaken params.email
  if taken then fail .emailAlreadyExists
  else do
    let passwordHash ← errorf "authService.Signup: hash password" (hashPassword params.password)
    let (tenant, user, membership, refreshToken) ← withTx "authService.Signup: begin transaction"
      "authService.Signup: commit transaction" (signupTx params passwordHash)
    let accessToken ← errorf "authService.Signup: generate access token"
      (generateAccessToken user.userID tenant.tenantID membership.role)
    pure (buildAuthResult user tenant membership.role accessToken refreshToken)

/-- The part of `Login` that runs on the owner connection. -/
def loginConn (user : User) : Service AuthResult := do
  let membership ← notFoundIs .invalidCredentials "authService.Login: get membership"
    (MembershipRepo.getByUserID .conn user.userID)
  let tenant ← errorf "authService.Login: get tenant" (TenantRepo.getByID .conn membership.tenantID)
  let accessToken ← errorf "authService.Login: generate access token"
    (generateAccessToken user.userID tenant.tenantID membership.role)
  let refreshToken ← issueRefreshToken .conn user.userID "authService.Login: generate refresh token"
    "authService.Login: verify refresh token" "authService.Login: save refresh token"
  pure (buildAuthResult user tenant membership.role accessToken refreshToken)

/-- `Login`. -/
def login (email password : String) : Service AuthResult := do
  let user ← notFoundIs .invalidCredentials "authService.Login: get user by email"
    (UserRepo.getByEmail .conn email)
  match verifyPassword password user.passwordHash with
  | .error _ => fail .invalidCredentials
  | .ok false => fail .invalidCredentials
  | .ok true => withConn "authService.Login: acquire connection" (loginConn user)

/-- The part of `RefreshToken` after the old token was found live: rotate it. -/
def rotate (rtClaims : RefreshTokenClaims) : Service AuthResult := do
  errorf "authService.RefreshToken: revoke old token" (RefreshTokenRepo.revoke .conn rtClaims.jti)
  let membership ← errorf "authService.RefreshToken: get membership"
    (MembershipRepo.getByUserID .conn rtClaims.userID)
  let tenant ← errorf "authService.RefreshToken: get tenant"
    (TenantRepo.getByID .conn membership.tenantID)
  let user ← errorf "authService.RefreshToken: get user" (UserRepo.getByID .conn rtClaims.userID)
  let newAccessToken ← errorf "authService.RefreshToken: generate access token"
    (generateAccessToken user.userID tenant.tenantID membership.role)
  let newRefreshToken ← issueRefreshToken .conn user.userID
    "authService.RefreshToken: generate refresh token"
    "authService.RefreshToken: verify new refresh token"
    "authService.RefreshToken: save new refresh token"
  pure (buildAuthResult user tenant membership.role newAccessToken newRefreshToken)

/-- The part of `RefreshToken` that runs on the owner connection. -/
def refreshConn (rtClaims : RefreshTokenClaims) : Service AuthResult := do
  let storedToken ← notFoundIs .invalidToken "authService.RefreshToken: get refresh token"
    (RefreshTokenRepo.getByJTI .conn rtClaims.jti)
  if storedToken.isRevoked then do
    -- Reuse: every session of the user is ended, and an error doing so is only logged.
    let _ ← Svc.attempt (RefreshTokenRepo.revokeAllByUserID .conn storedToken.userID)
    fail .tokenRevoked
  else rotate rtClaims

/-- `RefreshToken`. -/
def refreshToken (token : RefreshTokenText) : Service AuthResult := do
  let rtClaims ← verifyRefreshToken token
  withConn "authService.RefreshToken: acquire connection" (refreshConn rtClaims)

/-- The part of `Logout` that runs on the owner connection. -/
def logoutConn (rtClaims : RefreshTokenClaims) : Service Unit := do
  let storedToken ← notFoundIs .invalidToken "authService.Logout: get refresh token"
    (RefreshTokenRepo.getByJTI .conn rtClaims.jti)
  if storedToken.isRevoked then fail .tokenRevoked
  else errorf "authService.Logout: revoke token" (RefreshTokenRepo.revoke .conn rtClaims.jti)

/-- `Logout`. -/
def logout (token : RefreshTokenText) : Service Unit := do
  let rtClaims ← verifyRefreshToken token
  withConn "authService.Logout: acquire connection" (logoutConn rtClaims)

/-- `GetMe`, which runs in the transaction of its request. -/
def getMe (actor : Actor) : Service UserProfile := do
  let user ← errorf "authService.GetMe: get user" (UserRepo.getByID .tx actor.userID)
  let tenant ← errorf "authService.GetMe: get tenant" (TenantRepo.getByID .tx actor.tenantID)
  pure ⟨user.userID, user.name, user.email, actor.role, tenant.tenantID, tenant.companyName⟩

/-- The part of `RequestPasswordReset` that runs on the owner connection. -/
def requestPasswordResetConn (email : String) : Service Unit := do
  let user ← Svc.attempt (UserRepo.getByEmail .conn email)
  match user with
  | .error e =>
      -- An unknown address gets the same answer as a known one.
      if e.is .resourceNotFound then pure ()
      else throw (.wrap "authService.RequestPasswordReset: get user by email" e)
  | .ok user => do
      let random ← ext .randRead
      let tokenValue ← errorf "authService.RequestPasswordReset: generate token" (orFail random)
      let now ← timeNow
      let _ ← errorf "authService.RequestPasswordReset: save token"
        (PasswordResetRepo.create .conn user.userID (.ofText tokenValue) (now + resetTokenLifetime))
      pure ()

/-- `RequestPasswordReset`. -/
def requestPasswordReset (email : String) : Service Unit :=
  withConn "authService.RequestPasswordReset: acquire connection" (requestPasswordResetConn email)

/-- The part of `ExecutePasswordReset` that runs in its transaction. -/
def executePasswordResetTx (storedToken : PasswordResetToken) (newHash : PasswordHash) :
    Service Unit := do
  errorf "authService.ExecutePasswordReset: update password"
    (UserRepo.updatePassword .tx storedToken.userID newHash)
  errorf "authService.ExecutePasswordReset: mark used" (PasswordResetRepo.markUsed .tx storedToken.id)
  errorf "authService.ExecutePasswordReset: revoke all tokens"
    (RefreshTokenRepo.revokeAllByUserID .tx storedToken.userID)

/-- The part of `ExecutePasswordReset` that holds the owner connection. -/
def executePasswordResetConn (token newPassword : String) : Service Unit := do
  let storedToken ← notFoundIs .invalidToken "authService.ExecutePasswordReset: get token"
    (PasswordResetRepo.getByTokenHash .conn (.ofText token))
  if storedToken.usedAt.isSome then fail .invalidToken
  else do
    let now ← timeNow
    if storedToken.expiresAt < now then fail .tokenExpired
    else do
      let newHash ← errorf "authService.ExecutePasswordReset: hash password"
        (hashPassword newPassword)
      withTx "authService.ExecutePasswordReset: begin transaction"
        "authService.ExecutePasswordReset: commit transaction"
        (executePasswordResetTx storedToken newHash)

/-- `ExecutePasswordReset`. -/
def executePasswordReset (token newPassword : String) : Service Unit :=
  withConn "authService.ExecutePasswordReset: acquire owner conn"
    (executePasswordResetConn token newPassword)

end AuthService

end ExpenseSaas
