import ExpenseSaas.Middleware.Auth
import ExpenseSaas.Jwt.Documented

/-!
# From the login to the actor

What becomes of the tokens that `JWTGenerator` makes, at every time (`roundTrips`), and
what the two verifiers of access tokens make of any token (`verifyAccessToken_iff`). The
server gives both of them the key and the `kid` of the generator.
-/

namespace ExpenseSaas.JWT

open Go Jwt

section

variable {Key : Type} [DecidableEq Key]

/-! ## The tokens of the generator -/

/-- The verifier of the middleware, as `main.go` makes it. -/
def middlewareVerifier (key : Key) : Verifier Key := ⟨key, "expense-saas-key-1"⟩

/-- The verifier of the service, as `main.go` makes it. -/
def serviceVerifier (key : Key) : JWTVerifier Key := ⟨key, "expense-saas-key-1"⟩

/-- **What the tokens of one login are good for**: the access token for the actor, for 15 minutes,
and the refresh token for the user, for 7 days; a minute later they have expired, and neither ever
stands in for the other. -/
structure RoundTrips (L : Library) (U : Uuid.Package) (key : Key) (n : Time) (jti u t : Uuid)
    (r : Role) : Prop where
  access : ∀ now, n ≤ now → now ≤ n + 15 * minute →
    authenticate L U (middlewareVerifier key) now
      ((newJWTGenerator key).generateAccessToken L U n jti u t r) = .ok ⟨u.val, t.val, r⟩
  accessExpired : ∀ now, n + 16 * minute ≤ now →
    authenticate L U (middlewareVerifier key) now
      ((newJWTGenerator key).generateAccessToken L U n jti u t r) = .error tokenExpired
  refresh : ∀ now, n ≤ now → now ≤ n + 7 * 24 * 60 * minute →
    (serviceVerifier key).verifyRefreshToken L U now
      ((newJWTGenerator key).generateRefreshToken L U n jti u) = .ok ⟨u, jti⟩
  refreshExpired : ∀ now, n + (7 * 24 * 60 + 1) * minute ≤ now →
    (serviceVerifier key).verifyRefreshToken L U now
      ((newJWTGenerator key).generateRefreshToken L U n jti u) = .error .tokenExpired
  refreshNotVerified : ∀ now d, (middlewareVerifier key).verify L U now
    ((newJWTGenerator key).generateRefreshToken L U n jti u) ≠ .ok d
  refreshNoAccess : ∀ now claims, (serviceVerifier key).verifyAccessToken L U now
    ((newJWTGenerator key).generateRefreshToken L U n jti u) ≠ .ok claims
  accessNoRefresh : ∀ now claims, (serviceVerifier key).verifyRefreshToken L U now
    ((newJWTGenerator key).generateAccessToken L U n jti u t r) ≠ .ok claims

variable {L : Library} {U : Uuid.Package} {key : Key} {n now : Time} {jti u t : Uuid} {r : Role}

/-- A date some time after the issue is at most a second early, and the leeway a minute. -/
theorem window (L : Library) {n d now : Int} (h : n ≤ now) :
    (now ≤ n + d → now < L.newNumericDate (n + d) + 60 * Jwt.second) ∧
      L.newNumericDate n - 60 * Jwt.second ≤ now := by
  have hexp := L.newNumericDate_bounds (n + d)
  have hiat := L.newNumericDate_bounds n
  have hsecond : Jwt.second = 1000000000 := rfl
  omega

/-- And a minute after it the leeway is over as well. -/
theorem window_closed (L : Library) {n k now : Int} (h : n + (k + 1) * minute ≤ now) :
    L.newNumericDate (n + k * minute) + 60 * Jwt.second ≤ now := by
  have hexp := L.newNumericDate_bounds (n + k * minute)
  have hminute : minute = 60 * Jwt.second := rfl
  rw [Int.add_mul] at h
  omega

/-- **Tokens go out and come back**, at every time. -/
theorem roundTrips (L : Library) (U : Uuid.Package) (key : Key) (n : Time) (jti u t : Uuid)
    (r : Role) : RoundTrips L U key n jti u t r where
  access now hfrom hto := by
    have hw := @window L n accessTokenLifetime now hfrom
    have hparse := @parseToken_sign_ok L Key key "expense-saas-key-1" now _ _ _ _
      (@generated_accessClaims L U n jti u t r) rfl rfl (hw.1 hto) hw.2
    exact authenticate_eq_ok.mpr ⟨_, ⟨hparse, rfl⟩, u, t, r, U.parse_string u, U.parse_string t,
      Role.ofText_toText r, rfl⟩
  accessExpired now h := by
    have hexp := @window_closed L n 15 now h
    exact authenticate_eq_expired.mpr
      ((parseToken_sign_expired (generated_accessClaims n jti u t r) rfl).mpr hexp)
  refresh now hfrom hto := by
    have hw := @window L n refreshTokenLifetime now hfrom
    have hparse := @parseToken_sign_ok L Key key "expense-saas-key-1" now _ _ _ _
      (@generated_refreshClaims L U n jti u) rfl rfl (hw.1 hto) hw.2
    exact verifyRefreshToken_eq_ok.mpr ⟨_, ⟨hparse, rfl⟩, U.parse_string u, U.parse_string jti⟩
  refreshExpired now h := by
    have hexp := @window_closed L n (7 * 24 * 60) now h
    exact verifyRefreshToken_eq_expired.mpr
      ((parseToken_sign_expired (generated_refreshClaims n jti u) rfl).mpr hexp)
  refreshNotVerified now d h := by
    obtain ⟨hparse, htype, _⟩ := Verifier.verify_eq_ok.mp h
    obtain ⟨c, hc, rfl⟩ := Verifier.parse_eq_ok.mp hparse
    have hclaims : c = _ := (passes_of_parseToken_sign (generated_refreshClaims n jti u) hc).1
    rw [hclaims] at htype
    exact absurd (show "refresh" = "access" from htype) (by decide)
  refreshNoAccess now claims h := by
    obtain ⟨c, ⟨hc, htype⟩, _⟩ := verifyAccessToken_eq_ok.mp h
    have hclaims : c = _ := (passes_of_parseToken_sign (generated_refreshClaims n jti u) hc).1
    rw [hclaims] at htype
    exact absurd (show "refresh" = "access" from htype) (by decide)
  accessNoRefresh now claims h := by
    obtain ⟨c, ⟨hc, htype⟩, _⟩ := verifyRefreshToken_eq_ok.mp h
    have hclaims : c = _ := (passes_of_parseToken_sign (generated_accessClaims n jti u t r) hc).1
    rw [hclaims] at htype
    exact absurd (show "access" = "refresh" from htype) (by decide)

/-- **The rule that the service's model of a refresh token follows**: what the expiry and the issue
say, the leeway included, and else the user and the `jti`. -/
theorem verifyRefreshToken_generateRefreshToken (L : Library) (U : Uuid.Package) (key : Key)
    (n now : Int) (jti u : Uuid) :
    (serviceVerifier key).verifyRefreshToken L U now
      ((newJWTGenerator key).generateRefreshToken L U n jti u) =
    if L.newNumericDate (n + refreshTokenLifetime) + 60 * Jwt.second ≤ now then .error .tokenExpired
    else if now + 60 * Jwt.second < L.newNumericDate n then .error .invalidToken
    else .ok ⟨u, jti⟩ := by
  have hgenerated := @generated_refreshClaims L U n jti u
  have hexpired := @parseToken_sign_expired L Key key "expense-saas-key-1" now _ _ _ hgenerated rfl
  by_cases hexp : L.newNumericDate (n + refreshTokenLifetime) + 60 * Jwt.second ≤ now
  · rw [if_pos hexp]
    exact verifyRefreshToken_eq_expired.mpr (hexpired.mpr hexp)
  rw [if_neg hexp]
  by_cases hiat : now + 60 * Jwt.second < L.newNumericDate n
  · rw [if_pos hiat]
    cases hparse : JWTVerifier.parseToken L ⟨key, "expense-saas-key-1"⟩ now
        ((newJWTGenerator key).generateRefreshToken L U n jti u) with
    | error errs =>
      exact verifyRefreshToken_of_error hparse fun hmem => hexp (hexpired.mp ⟨errs, hparse, hmem⟩)
    | ok p =>
      have hpasses := (passes_of_parseToken_sign hgenerated hparse).2
      have hle : L.newNumericDate n - 60 * Jwt.second ≤ now := hpasses.issuedAt rfl _ rfl
      omega
  · rw [if_neg hiat]
    have hparse := @parseToken_sign_ok L Key key "expense-saas-key-1" now _ _ _ _ hgenerated rfl rfl
      (Int.not_le.mp hexp) (by omega)
    exact verifyRefreshToken_eq_ok.mpr ⟨_, ⟨hparse, rfl⟩, U.parse_string u, U.parse_string jti⟩

/-- The login of a member, with the package as documented. -/
theorem roundTrips_of_member :
    RoundTrips Library.documented Uuid.canonical 7 1700000000123456789 3 1 2 .member :=
  roundTrips Library.documented Uuid.canonical 7 1700000000123456789 3 1 2 .member

/-! ## The two verifiers of access tokens -/

/-- The actor of verified claims. -/
def TokenClaims.actor (claims : TokenClaims) : Actor :=
  ⟨claims.userID.val, claims.tenantID.val, claims.role⟩

/-- The `jti` of a token, if it has one that is a UUID. -/
def jtiOf (L : Library) (U : Uuid.Package) : TokenText Key → Option Uuid
  | .malformed _ => none
  | .signed token => (JwtClaims.unmarshal L token.payload).bind fun c => U.parse c.registered.id

/-- The verifiers accept the same tokens for the same actors, and report the same ones as
expired. -/
structure Agree (L : Library) (U : Uuid.Package) (v : Verifier Key) (now : Time)
    (token : TokenText Key) : Prop where
  accepted : ∀ a, authenticate L U v now token = .ok a ↔
    ∃ claims, JWTVerifier.verifyAccessToken L U ⟨v.publicKey, v.kid⟩ now token = .ok claims ∧
      claims.actor = a
  expired : authenticate L U v now token = .error tokenExpired ↔
    JWTVerifier.verifyAccessToken L U ⟨v.publicKey, v.kid⟩ now token = .error .tokenExpired

/-- The claims an accepted token carries. -/
theorem jtiOf_of_parseToken {v : JWTVerifier Key} {token : TokenText Key} {c : JwtClaims}
    (h : v.parseToken L now token = .ok ⟨c, true⟩) : jtiOf L U token = U.parse c.registered.id := by
  cases token with
  | malformed text => exact absurd h L.parse_malformed_ne_ok
  | signed token =>
    have hreads := ((L.parse_eq_ok _ _ _ _ _ _ _).mp h).1
    show (JwtClaims.unmarshal L token.payload).bind _ = _
    rw [hreads.decoded]
    rfl

/-- **The service's verifier asks for a `jti` as well, and for nothing else**: it accepts a token
with the actor and the `jti` it has if and only if the middleware accepts it for that actor, and
both report the same tokens as expired. -/
theorem verifyAccessToken_iff (L : Library) (U : Uuid.Package) (v : Verifier Key) (now : Time)
    (token : TokenText Key) :
    (∀ claims, JWTVerifier.verifyAccessToken L U ⟨v.publicKey, v.kid⟩ now token = .ok claims ↔
      authenticate L U v now token = .ok claims.actor ∧ jtiOf L U token = some claims.jti ∧
        claims.tokenType = "access") ∧
    (JWTVerifier.verifyAccessToken L U ⟨v.publicKey, v.kid⟩ now token = .error .tokenExpired ↔
      authenticate L U v now token = .error tokenExpired) := by
  refine ⟨fun claims => ?_, verifyAccessToken_eq_expired.trans authenticate_eq_expired.symm⟩
  rw [verifyAccessToken_eq_ok, authenticate_eq_ok]
  constructor
  · rintro ⟨c, ⟨hc, htype⟩, hu, ht, hjti, hr, htype'⟩
    exact ⟨⟨c, ⟨hc, htype⟩, _, _, _, hu, ht, hr, rfl⟩, (jtiOf_of_parseToken hc).trans hjti,
      htype'.symm.trans htype⟩
  · rintro ⟨⟨c, ⟨hc, htype⟩, u, t, r, hu, ht, hr, hactor⟩, hjti, htype'⟩
    have huser : claims.userID = u := Fin.ext (congrArg Actor.userID hactor)
    have htenant : claims.tenantID = t := Fin.ext (congrArg Actor.tenantID hactor)
    have hrole : claims.role = r := congrArg Actor.role hactor
    rw [huser, htenant, hrole]
    exact ⟨c, ⟨hc, htype⟩, hu, ht, (jtiOf_of_parseToken hc).symm.trans hjti, hr,
      htype.trans htype'.symm⟩

/-- The claims of a token as the tests of the handlers sign them, without a `jti`. -/
def Sample.claims : JwtClaims :=
  let c := accessClaims .documented Uuid.canonical 0 0 1 2 .member
  { c with registered := { c.registered with id := "" } }

/-- Such a token. -/
def Sample.token : TokenText Nat :=
  .signed ((newJWTGenerator 7).sign .documented Sample.claims)

/-- The middleware accepts it, and the service's verifier does not. -/
theorem not_agree_of_no_jti :
    ¬Agree Library.documented Uuid.canonical (middlewareVerifier 7) 0 Sample.token := by
  intro h
  have hgenerated : Generated Sample.claims :=
    ⟨⟨rfl, Library.documented.whole_newNumericDate _, whole_none,
      Library.documented.whole_newNumericDate _⟩, rfl, rfl⟩
  have hparse : JWTVerifier.parseToken Library.documented ⟨7, "expense-saas-key-1"⟩ 0 Sample.token =
      .ok ⟨Sample.claims, true⟩ :=
    parseToken_sign_ok hgenerated rfl rfl (by decide) (by decide)
  have haccepted : authenticate Library.documented Uuid.canonical (middlewareVerifier 7) 0
      Sample.token = .ok ⟨1, 2, .member⟩ :=
    authenticate_eq_ok.mpr ⟨_, ⟨hparse, rfl⟩, 1, 2, .member, Uuid.ofText_toText 1,
      Uuid.ofText_toText 2, Role.ofText_toText .member, rfl⟩
  obtain ⟨claims, hclaims, _⟩ := (h.accepted _).mp haccepted
  obtain ⟨c, ⟨hc, _⟩, _, _, hjti, _⟩ := verifyAccessToken_eq_ok.mp hclaims
  cases hparse.symm.trans hc
  cases hjti

end

end ExpenseSaas.JWT
