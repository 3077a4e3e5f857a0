import ExpenseSaas.Domain.Tokens

/-!
# Auth

`internal/pkg/jwt/jwt.go`, the middleware of `internal/middleware/auth.go` and
`actorFromRequest` of `internal/handler/helpers.go`: the way of an access token from the
`Authorization` header to the actor a handler works for.

The struct for the claims is not the one of `internal/domain/auth.go`: its `UserID` takes
the `sub` away from the embedded struct. What the one holds the other holds as well
(`Claims.unmarshal_eq`), so both parsers accept and refuse the same tokens and report the
same ones as expired (`Verifier.parse_eq_ok`, `Verifier.parse_eq_expired`).
-/

namespace ExpenseSaas.JWT

open Go Jwt

/-! ## The verifier -/

/-- `Claims`. -/
structure Claims where
  userID : String
  tenantID : String
  role : String
  tokenType : String
  registered : RegisteredClaims
  deriving DecidableEq

namespace Claims

/-- `Claims{}`. -/
def zero : Claims := ⟨"", "", "", "", .zero⟩

/-- The fields of the struct itself. -/
def ownNames : List String := ["sub", "tenant_id", "role", "token_type"]

/-- The names of the fields; a field of the embedded struct of a name that is taken is none. -/
def names : List String := ownNames ++ RegisteredClaims.names.filter (· ∉ ownNames)

/-- A value for a field. -/
def set (L : Library) (c : Claims) (name : String) (v : Json) : Option Claims :=
  match name with
  | "sub" => (Json.unmarshalString c.userID v).map fun s => { c with userID := s }
  | "tenant_id" => (Json.unmarshalString c.tenantID v).map fun s => { c with tenantID := s }
  | "role" => (Json.unmarshalString c.role v).map fun s => { c with role := s }
  | "token_type" => (Json.unmarshalString c.tokenType v).map fun s => { c with tokenType := s }
  | _ => (L.set c.registered name v).map fun r => { c with registered := r }

/-- `json.Unmarshal`. -/
def unmarshal (L : Library) : Json → Option Claims := Json.unmarshal names (set L) zero

end Claims

section

variable {Key : Type}

/-- `Verifier`. -/
structure Verifier (Key : Type) where
  publicKey : Key
  kid : String

/-- Why `Verify` refuses a token. -/
inductive VerifyError where
  | parse (errs : List Error)
  | tokenIsInvalid
  | tokenType (tokenType : String)
  | userIDFormat
  | tenantIDFormat

/-- `errors.Is(err, gojwt.ErrTokenExpired)`. -/
def VerifyError.isExpired : VerifyError → Bool
  | .parse errs => Error.tokenExpired ∈ errs
  | _ => false

variable [DecidableEq Key]

/-- What `Verify` asks the library. -/
def Verifier.parse (L : Library) (v : Verifier Key) (now : Time) :
    TokenText Key → Except (List Error) (Parsed Claims) :=
  L.parseWithClaims (Claims.unmarshal L) Claims.registered (keyFunc v.publicKey v.kid)
    parserOptions now

/-- `Verify`. -/
def Verifier.verify (L : Library) (U : Uuid.Package) (v : Verifier Key) (now : Time)
    (token : TokenText Key) : Except VerifyError Claims :=
  match v.parse L now token with
  | .error errs => .error (.parse errs)
  | .ok token =>
    if token.valid = false then .error .tokenIsInvalid
    else if token.claims.tokenType ≠ "access" then .error (.tokenType token.claims.tokenType)
    else if U.parse token.claims.userID = none then .error .userIDFormat
    else if U.parse token.claims.tenantID = none then .error .tenantIDFormat
    else .ok token.claims

/-! ## The middleware -/

/-- The `Authorization` header. -/
inductive Authorization (Key : Type) where
  /-- No header, or one that does not begin with `Bearer `. -/
  | other (text : String)
  | bearer (token : TokenText Key)

/-- The values of the request context that the handlers read. -/
structure RequestContext where
  userID : String
  tenantID : String
  role : String
  deriving DecidableEq

/-- A response of `RespondError`. -/
structure ErrorResponse where
  status : Nat
  code : String
  message : String
  deriving DecidableEq

/-- The response to a token that has expired. -/
def tokenExpired : ErrorResponse := ⟨401, "TOKEN_EXPIRED", "Token has expired"⟩

/-- The token that follows `Bearer `, if it is not empty. -/
def Authorization.token : Authorization Key → Option (TokenText Key)
  | .other _ => none
  | .bearer (.malformed text) => if text = "" then none else some (.malformed text)
  | .bearer token => some token

/-- `Auth`: the response, or the context for the next handler. -/
def auth (L : Library) (U : Uuid.Package) (verifier : Option (Verifier Key)) (now : Time)
    (header : Authorization Key) : Except ErrorResponse RequestContext :=
  match verifier with
  | none => .error ⟨401, "UNAUTHORIZED", "Authentication not configured"⟩
  | some v =>
    match header.token with
    | none => .error ⟨401, "UNAUTHORIZED", "Authentication required"⟩
    | some token =>
      match v.verify L U now token with
      | .error err =>
        if err.isExpired then .error tokenExpired
        else .error ⟨401, "INVALID_TOKEN", "Invalid token"⟩
      | .ok claims => .ok ⟨claims.userID, claims.tenantID, claims.role⟩

/-- `actorFromRequest`. -/
def actorFromRequest (U : Uuid.Package) (ctx : RequestContext) : Option Actor := do
  let userID ← U.parse ctx.userID
  let tenantID ← U.parse ctx.tenantID
  let role ← Role.ofText ctx.role
  some ⟨userID.val, tenantID.val, role⟩

/-- A request with a bearer token, up to the actor: the response, or what `actorFromRequest` says;
without an actor the handlers answer `UNAUTHORIZED`. -/
def authenticate (L : Library) (U : Uuid.Package) (v : Verifier Key) (now : Time)
    (token : TokenText Key) : Except ErrorResponse Actor := do
  let ctx ← auth L U (some v) now (.bearer token)
  match actorFromRequest U ctx with
  | none => .error ⟨401, "UNAUTHORIZED", "unauthorized"⟩
  | some actor => .ok actor

end

/-! ## The two structs -/

/-- What the struct of `internal/domain` holds, as this one holds it. -/
def JwtClaims.toClaims (c : JwtClaims) : Claims :=
  ⟨c.registered.subject, c.tenantID, c.role, c.tokenType, { c.registered with subject := "" }⟩

section

variable {Key : Type} [DecidableEq Key] {L : Library} {U : Uuid.Package} {now : Time}

theorem names_perm : JwtClaims.names.Perm Claims.names := by decide

theorem names_nodup : (JwtClaims.names.map Json.foldName).Nodup := by decide

theorem set_toClaims (c : JwtClaims) (name : String) (v : Json) :
    (c.set L name v).map JwtClaims.toClaims = c.toClaims.set L name v := by
  unfold JwtClaims.set
  split
  · exact Option.map_map _ _ _
  · exact Option.map_map _ _ _
  · exact Option.map_map _ _ _
  · by_cases hsub : name = "sub"
    · subst hsub
      rw [L.set_sub, Option.map_map, Option.map_map]
      show _ = (Json.unmarshalString c.registered.subject v).map _
      rfl
    · unfold Claims.set
      split
      · exact absurd rfl hsub
      · contradiction
      · contradiction
      · contradiction
      · -- the one keeps the subject, and the other goes without
        have hempty := L.set_subject c.registered name hsub "" v
        have hkept : L.set c.registered name v = (L.set c.registered name v).map _ :=
          L.set_subject c.registered name hsub c.registered.subject v
        show _ = (L.set { c.registered with subject := "" } name v).map _
        rw [hempty]
        cases hr : L.set c.registered name v with
        | none => rfl
        | some r =>
          rw [hr, Option.map_some] at hkept
          have hsubject : r.subject = c.registered.subject := by
            rw [Option.some.inj hkept]
          show some (JwtClaims.toClaims ⟨_, _, _, r⟩) = _
          unfold JwtClaims.toClaims
          rw [hsubject]
          rfl

/-- Both structs are filled from a token alike. -/
theorem Claims.unmarshal_eq (v : Json) :
    Claims.unmarshal L v = (JwtClaims.unmarshal L v).map JwtClaims.toClaims :=
  (Json.unmarshal_map (Json.fieldOf_perm names_perm names_nodup) set_toClaims JwtClaims.zero v).symm

/-! ## What the middleware accepts -/

variable {v : Verifier Key} {token : TokenText Key}

/-- **The parser of the middleware accepts what the other one accepts.** -/
theorem Verifier.parse_eq_ok {d : Claims} : v.parse L now token = .ok ⟨d, true⟩ ↔
    ∃ c, JWTVerifier.parseToken L ⟨v.publicKey, v.kid⟩ now token = .ok ⟨c, true⟩ ∧ c.toClaims = d :=
  L.parse_alike Claims.unmarshal_eq fun _ => rfl

/-- **And it reports as expired what the other one does.** -/
theorem Verifier.parse_eq_expired :
    (∃ errs, v.parse L now token = .error errs ∧ Error.tokenExpired ∈ errs) ↔
      ∃ errs, JWTVerifier.parseToken L ⟨v.publicKey, v.kid⟩ now token = .error errs ∧
        Error.tokenExpired ∈ errs :=
  L.expired_alike Claims.unmarshal_eq fun _ => rfl

/-- What `Verify` accepts. -/
theorem Verifier.verify_eq_ok {d : Claims} : v.verify L U now token = .ok d ↔
    v.parse L now token = .ok ⟨d, true⟩ ∧ d.tokenType = "access" ∧ U.parse d.userID ≠ none ∧
      U.parse d.tenantID ≠ none := by
  unfold Verifier.verify
  cases v.parse L now token with
  | error errs => simp
  | ok p =>
    obtain ⟨claims, valid⟩ := p
    cases valid with
    | false => simp
    | true => grind

/-- What `Verify` reports as expired. -/
theorem Verifier.verify_eq_expired :
    (∃ err, v.verify L U now token = .error err ∧ err.isExpired = true) ↔
      ∃ errs, v.parse L now token = .error errs ∧ Error.tokenExpired ∈ errs := by
  unfold Verifier.verify
  cases v.parse L now token with
  | error errs => simp [VerifyError.isExpired]
  | ok p => grind [VerifyError.isExpired]

/-- A text that is no token is refused, and not as one that has expired. -/
theorem Verifier.verify_malformed (text : String) :
    ∃ err, v.verify L U now (.malformed text) = .error err ∧ err.isExpired = false := by
  obtain ⟨errs, herrs, hnot⟩ := L.parse_malformed (Claims.unmarshal L) Claims.registered
    (keyFunc v.publicKey v.kid) parserOptions now text
  have hparse : v.parse L now (.malformed text) = .error errs := herrs
  refine ⟨.parse errs, ?_, decide_eq_false hnot⟩
  unfold Verifier.verify
  rw [hparse]

theorem auth_malformed (text : String) :
    ∃ r, auth L U (some v) now (.bearer (.malformed text)) = .error r ∧ r ≠ tokenExpired := by
  by_cases htext : text = ""
  · refine ⟨⟨401, "UNAUTHORIZED", "Authentication required"⟩, ?_, by decide⟩
    simp [auth, Authorization.token, htext]
  · obtain ⟨err, herr, hexpired⟩ := @Verifier.verify_malformed Key _ L U now v text
    refine ⟨⟨401, "INVALID_TOKEN", "Invalid token"⟩, ?_, by decide⟩
    simp only [auth, Authorization.token, if_neg htext, herr, hexpired]
    rfl

/-- The context the middleware sets up. -/
theorem auth_eq_ok {ctx : RequestContext} : auth L U (some v) now (.bearer token) = .ok ctx ↔
    ∃ d, v.verify L U now token = .ok d ∧ ctx = ⟨d.userID, d.tenantID, d.role⟩ := by
  cases token with
  | malformed text =>
    obtain ⟨r, hr, _⟩ := @auth_malformed Key _ L U now v text
    obtain ⟨err, herr, _⟩ := @Verifier.verify_malformed Key _ L U now v text
    rw [hr, herr]
    simp
  | signed token =>
    simp only [auth, Authorization.token]
    cases v.verify L U now (.signed token) with
    | error err => cases h : err.isExpired <;> simp [h]
    | ok d => simp [eq_comm]

/-- The tokens it says have expired. -/
theorem auth_eq_expired : auth L U (some v) now (.bearer token) = .error tokenExpired ↔
    ∃ err, v.verify L U now token = .error err ∧ err.isExpired = true := by
  cases token with
  | malformed text =>
    obtain ⟨r, hr, hne⟩ := @auth_malformed Key _ L U now v text
    obtain ⟨err, herr, hexpired⟩ := @Verifier.verify_malformed Key _ L U now v text
    rw [hr, herr]
    simp [hne, hexpired]
  | signed token =>
    simp only [auth, Authorization.token]
    cases v.verify L U now (.signed token) with
    | error err => cases h : err.isExpired <;> simp [h, tokenExpired]
    | ok d => simp

theorem actorFromRequest_eq_some {ctx : RequestContext} {a : Actor} :
    actorFromRequest U ctx = some a ↔
      ∃ u t r, U.parse ctx.userID = some u ∧ U.parse ctx.tenantID = some t ∧
        Role.ofText ctx.role = some r ∧ a = ⟨u.val, t.val, r⟩ := by
  simp only [actorFromRequest, Option.bind_eq_bind, Option.bind_eq_some_iff, Option.some.injEq]
  grind

/-- What the middleware and the handler accept. -/
theorem authenticate_eq_ok {a : Actor} : authenticate L U v now token = .ok a ↔
    ∃ c, (JWTVerifier.parseToken L ⟨v.publicKey, v.kid⟩ now token = .ok ⟨c, true⟩ ∧
        c.tokenType = "access") ∧
      ∃ u t r, U.parse c.registered.subject = some u ∧ U.parse c.tenantID = some t ∧
        Role.ofText c.role = some r ∧ a = ⟨u.val, t.val, r⟩ := by
  have hactor {ctx : RequestContext} : (match actorFromRequest U ctx with
      | none => Except.error ⟨401, "UNAUTHORIZED", "unauthorized"⟩
      | some actor => Except.ok actor : Except ErrorResponse Actor) = .ok a ↔
        actorFromRequest U ctx = some a := by
    cases actorFromRequest U ctx with
    | none => simp
    | some _ => simp
  unfold authenticate
  simp only [Except.bind_eq_ok, auth_eq_ok, hactor, actorFromRequest_eq_some, Verifier.verify_eq_ok,
    Verifier.parse_eq_ok]
  constructor
  · rintro ⟨ctx, ⟨d, ⟨⟨c, hc, rfl⟩, htype, _, _⟩, rfl⟩, hparts⟩
    exact ⟨c, ⟨hc, htype⟩, hparts⟩
  · rintro ⟨c, ⟨hc, htype⟩, u, t, r, hu, ht, hr, ha⟩
    refine ⟨_, ⟨c.toClaims, ⟨⟨c, hc, rfl⟩, htype, ?_, ?_⟩, rfl⟩, u, t, r, hu, ht, hr, ha⟩
    · intro hnone
      cases hu.symm.trans hnone
    · intro hnone
      cases ht.symm.trans hnone

/-- What they report as expired. -/
theorem authenticate_eq_expired : authenticate L U v now token = .error tokenExpired ↔
    ∃ errs, JWTVerifier.parseToken L ⟨v.publicKey, v.kid⟩ now token = .error errs ∧
      Error.tokenExpired ∈ errs := by
  rw [← Verifier.parse_eq_expired, ← Verifier.verify_eq_expired, ← auth_eq_expired]
  unfold authenticate
  cases auth L U (some v) now (.bearer token) with
  | error r =>
    show Except.error r = _ ↔ _
    rw [Except.error.injEq, Except.error.injEq]
  | ok ctx =>
    show (match actorFromRequest U ctx with
      | none => Except.error ⟨401, "UNAUTHORIZED", "unauthorized"⟩
      | some actor => Except.ok actor : Except ErrorResponse Actor) = _ ↔ _
    cases actorFromRequest U ctx with
    | none => simp [tokenExpired]
    | some _ => simp

end

end ExpenseSaas.JWT
