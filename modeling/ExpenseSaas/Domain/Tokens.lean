import ExpenseSaas.Domain.Entity
import ExpenseSaas.Domain.Errors
import ExpenseSaas.Go.Uuid
import ExpenseSaas.Jwt.Token

/-!
# Tokens

`JWTGenerator` and `JWTVerifier` of `internal/domain/auth.go`: the claims of a token as a
struct, the struct as JSON, and what the verifier makes of a token.

The time and the `jti` are given to the generator as `time.Now` and `uuid.New` gave them.
A token the generator makes is filled into the struct again as it was
(`JwtClaims.unmarshal_marshal`).
-/

namespace ExpenseSaas

/-- `string(role)`. -/
def Role.toText : Role → String
  | .admin => "admin"
  | .approver => "approver"
  | .member => "member"
  | .accounting => "accounting"

/-- `Role(s)`, if that is a role that `IsValid`. -/
def Role.ofText (s : String) : Option Role :=
  match s with
  | "admin" => some .admin
  | "approver" => some .approver
  | "member" => some .member
  | "accounting" => some .accounting
  | _ => none

@[simp] theorem Role.ofText_toText (r : Role) : Role.ofText r.toText = some r := by
  cases r <;> decide

namespace JWT

open Go Jwt

/-! ## The claims -/

/-- `jwtClaims`. -/
structure JwtClaims where
  tenantID : String
  role : String
  tokenType : String
  registered : RegisteredClaims
  deriving DecidableEq

namespace JwtClaims

/-- `jwtClaims{}`. -/
def zero : JwtClaims := ⟨"", "", "", .zero⟩

/-- The names of the fields, those of the embedded struct included. -/
def names : List String := ["tenant_id", "role", "token_type"] ++ RegisteredClaims.names

/-- A value for a field. -/
def set (L : Library) (c : JwtClaims) (name : String) (v : Json) : Option JwtClaims :=
  match name with
  | "tenant_id" => (Json.unmarshalString c.tenantID v).map fun s => { c with tenantID := s }
  | "role" => (Json.unmarshalString c.role v).map fun s => { c with role := s }
  | "token_type" => (Json.unmarshalString c.tokenType v).map fun s => { c with tokenType := s }
  | _ => (L.set c.registered name v).map fun r => { c with registered := r }

/-- `json.Unmarshal`. -/
def unmarshal (L : Library) : Json → Option JwtClaims := Json.unmarshal names (set L) zero

/-- `json.Marshal`. -/
def marshal (L : Library) (c : JwtClaims) : Json :=
  .obj (Json.omitEmpty "tenant_id" c.tenantID ++ (Json.omitEmpty "role" c.role ++
    (("token_type", .str c.tokenType) :: L.members c.registered)))

end JwtClaims

/-! ## Generating -/

/-- `time.Minute`. -/
def minute : Int := 60 * Jwt.second

/-- How long an access token lives: 15 minutes. -/
def accessTokenLifetime : Int := 15 * minute

/-- How long a refresh token lives: 7 days. -/
def refreshTokenLifetime : Int := 7 * 24 * 60 * minute

section

variable {Key : Type}

/-- `JWTGenerator`. -/
structure JWTGenerator (Key : Type) where
  privateKey : Key
  kid : String

/-- `NewJWTGenerator`. -/
def newJWTGenerator (privateKey : Key) : JWTGenerator Key := ⟨privateKey, "expense-saas-key-1"⟩

/-- `NewWithClaims` for `RS256`, the `kid`, and `SignedString`. -/
def JWTGenerator.sign (L : Library) (g : JWTGenerator Key) (claims : JwtClaims) : Token Key :=
  ⟨.obj [("alg", .str SigningMethod.rs256.alg), ("kid", .str g.kid), ("typ", .str "JWT")],
    claims.marshal L, g.privateKey⟩

/-- The claims of an access token. -/
def accessClaims (L : Library) (U : Uuid.Package) (now : Time) (jti userID tenantID : Uuid)
    (role : Role) : JwtClaims :=
  ⟨U.string tenantID, role.toText, "access", "expense-saas", U.string userID, [],
    some (L.newNumericDate (now + accessTokenLifetime)), none, some (L.newNumericDate now),
    U.string jti⟩

/-- `GenerateAccessToken`. -/
def JWTGenerator.generateAccessToken (L : Library) (U : Uuid.Package) (g : JWTGenerator Key)
    (now : Time) (jti userID tenantID : Uuid) (role : Role) : TokenText Key :=
  .signed (g.sign L (accessClaims L U now jti userID tenantID role))

/-- The claims of a refresh token. -/
def refreshClaims (L : Library) (U : Uuid.Package) (now : Time) (jti userID : Uuid) : JwtClaims :=
  ⟨"", "", "refresh", "expense-saas", U.string userID, [],
    some (L.newNumericDate (now + refreshTokenLifetime)), none, some (L.newNumericDate now),
    U.string jti⟩

/-- `GenerateRefreshToken`. -/
def JWTGenerator.generateRefreshToken (L : Library) (U : Uuid.Package) (g : JWTGenerator Key)
    (now : Time) (jti userID : Uuid) : TokenText Key :=
  .signed (g.sign L (refreshClaims L U now jti userID))

/-! ## Verifying -/

/-- The options of both verifiers. -/
def parserOptions : ParserOptions := ⟨true, "expense-saas", true, 60 * Jwt.second⟩

/-- The key function of both verifiers: the public key for `RS256` and the right `kid`. -/
def keyFunc (publicKey : Key) (kid : String) (m : SigningMethod) (header : List (String × Json)) :
    Option Key :=
  if m.rsa = false then none
  else if m.alg ≠ SigningMethod.rs256.alg then none
  else match (Json.index header "kid").bind Json.asString with
    | none => none
    | some kidHeader => if kidHeader ≠ kid then none else some publicKey

/-- `JWTVerifier`. -/
structure JWTVerifier (Key : Type) where
  publicKey : Key
  kid : String

/-- `TokenClaims`. -/
structure TokenClaims where
  userID : Uuid
  tenantID : Uuid
  role : Role
  tokenType : String
  jti : Uuid
  deriving DecidableEq

/-- `RefreshTokenClaims`. -/
structure RefreshTokenClaims where
  userID : Uuid
  jti : Uuid
  deriving DecidableEq

variable [DecidableEq Key]

/-- `parseToken`. -/
def JWTVerifier.parseToken (L : Library) (v : JWTVerifier Key) (now : Time) :
    TokenText Key → Except (List Error) (Parsed JwtClaims) :=
  L.parseWithClaims (JwtClaims.unmarshal L) JwtClaims.registered (keyFunc v.publicKey v.kid)
    parserOptions now

/-- The claims of a token that is valid and of the given type, or how it is refused. -/
def claimsOf (tokenType : String) : Except (List Error) (Parsed JwtClaims) → Except DomainError JwtClaims
  | .error errs => .error (if Error.tokenExpired ∈ errs then .tokenExpired else .invalidToken)
  | .ok token =>
    if token.valid = false then .error .invalidToken
    else if token.claims.tokenType ≠ tokenType then .error .invalidToken
    else .ok token.claims

/-- `VerifyAccessToken`. -/
def JWTVerifier.verifyAccessToken (L : Library) (U : Uuid.Package) (v : JWTVerifier Key) (now : Time)
    (token : TokenText Key) : Except DomainError TokenClaims := do
  let claims ← claimsOf "access" (v.parseToken L now token)
  let userID ← orError .invalidToken (U.parse claims.registered.subject)
  let tenantID ← orError .invalidToken (U.parse claims.tenantID)
  let jti ← orError .invalidToken (U.parse claims.registered.id)
  let role ← orError .invalidToken (Role.ofText claims.role)
  pure ⟨userID, tenantID, role, claims.tokenType, jti⟩

/-- `VerifyRefreshToken`. -/
def JWTVerifier.verifyRefreshToken (L : Library) (U : Uuid.Package) (v : JWTVerifier Key) (now : Time)
    (token : TokenText Key) : Except DomainError RefreshTokenClaims := do
  let claims ← claimsOf "refresh" (v.parseToken L now token)
  let userID ← orError .invalidToken (U.parse claims.registered.subject)
  let jti ← orError .invalidToken (U.parse claims.registered.id)
  pure ⟨userID, jti⟩

end

/-! ## What the verifier accepts -/

section

variable {Key : Type} [DecidableEq Key] {L : Library} {U : Uuid.Package} {v : JWTVerifier Key}
  {now : Time} {token : TokenText Key} {tokenType : String} {c : JwtClaims}
  {x : Except (List Error) (Parsed JwtClaims)}

theorem claimsOf_eq_ok :
    claimsOf tokenType x = .ok c ↔ x = .ok ⟨c, true⟩ ∧ c.tokenType = tokenType := by
  cases x with
  | error errs => simp [claimsOf]
  | ok token =>
    obtain ⟨claims, valid⟩ := token
    cases valid with
    | false => simp [claimsOf]
    | true =>
      by_cases htype : claims.tokenType = tokenType
      · simp only [claimsOf, htype]
        grind
      · simp only [claimsOf]
        grind

theorem claimsOf_eq_expired :
    claimsOf tokenType x = .error .tokenExpired ↔ ∃ errs, x = .error errs ∧ Error.tokenExpired ∈ errs := by
  cases x with
  | error errs => by_cases h : Error.tokenExpired ∈ errs <;> simp [claimsOf, h]
  | ok token =>
    simp only [claimsOf]
    grind

/-- Only the library says that a token has expired. -/
theorem expired_iff_claimsOf {α : Type} {f : JwtClaims → Except DomainError α}
    (h : ∀ c, f c ≠ .error .tokenExpired) : claimsOf tokenType x >>= f = .error .tokenExpired ↔
      ∃ errs, x = .error errs ∧ Error.tokenExpired ∈ errs := by
  rw [← claimsOf_eq_expired]
  cases claimsOf tokenType x with
  | error e =>
    show Except.error e = _ ↔ _
    rw [Except.error.injEq, Except.error.injEq]
  | ok c =>
    have hok : (Except.ok c : Except DomainError JwtClaims) ≠ .error .tokenExpired := by
      intro heq
      cases heq
    exact iff_of_false (h c) hok

theorem orError_bind_ne_expired {α β : Type} {x : Option α} {f : α → Except DomainError β}
    (h : ∀ a, f a ≠ .error .tokenExpired) :
    orError .invalidToken x >>= f ≠ .error .tokenExpired := by
  cases x with
  | none =>
    intro heq
    cases heq
  | some a => exact h a

/-- What `VerifyAccessToken` accepts. -/
theorem verifyAccessToken_eq_ok {claims : TokenClaims} :
    v.verifyAccessToken L U now token = .ok claims ↔
      ∃ c, (v.parseToken L now token = .ok ⟨c, true⟩ ∧ c.tokenType = "access") ∧
        U.parse c.registered.subject = some claims.userID ∧ U.parse c.tenantID = some claims.tenantID ∧
        U.parse c.registered.id = some claims.jti ∧ Role.ofText c.role = some claims.role ∧
        c.tokenType = claims.tokenType := by
  unfold JWTVerifier.verifyAccessToken
  simp only [Except.bind_eq_ok, orError_eq_ok, claimsOf_eq_ok]
  refine exists_congr fun c => and_congr_right fun _ => ?_
  constructor
  · rintro ⟨u, hu, t, ht, jti, hjti, r, hr, heq⟩
    cases heq
    exact ⟨hu, ht, hjti, hr, rfl⟩
  · rintro ⟨hu, ht, hjti, hr, htype⟩
    refine ⟨_, hu, _, ht, _, hjti, _, hr, ?_⟩
    rw [htype]
    rfl

/-- What it reports as expired. -/
theorem verifyAccessToken_eq_expired :
    v.verifyAccessToken L U now token = .error .tokenExpired ↔
      ∃ errs, v.parseToken L now token = .error errs ∧ Error.tokenExpired ∈ errs := by
  refine expired_iff_claimsOf fun c => ?_
  refine orError_bind_ne_expired fun u => orError_bind_ne_expired fun t =>
    orError_bind_ne_expired fun jti => orError_bind_ne_expired fun r => ?_
  intro heq
  cases heq

/-- What `VerifyRefreshToken` accepts. -/
theorem verifyRefreshToken_eq_ok {claims : RefreshTokenClaims} :
    v.verifyRefreshToken L U now token = .ok claims ↔
      ∃ c, (v.parseToken L now token = .ok ⟨c, true⟩ ∧ c.tokenType = "refresh") ∧
        U.parse c.registered.subject = some claims.userID ∧
        U.parse c.registered.id = some claims.jti := by
  unfold JWTVerifier.verifyRefreshToken
  simp only [Except.bind_eq_ok, orError_eq_ok, claimsOf_eq_ok]
  refine exists_congr fun c => and_congr_right fun _ => ?_
  constructor
  · rintro ⟨u, hu, jti, hjti, heq⟩
    cases heq
    exact ⟨hu, hjti⟩
  · rintro ⟨hu, hjti⟩
    exact ⟨_, hu, _, hjti, rfl⟩

/-- What it reports as expired. -/
theorem verifyRefreshToken_eq_expired :
    v.verifyRefreshToken L U now token = .error .tokenExpired ↔
      ∃ errs, v.parseToken L now token = .error errs ∧ Error.tokenExpired ∈ errs := by
  refine expired_iff_claimsOf fun c => ?_
  refine orError_bind_ne_expired fun u => orError_bind_ne_expired fun jti => ?_
  intro heq
  cases heq

/-- A token that the library refuses for anything else is invalid. -/
theorem verifyRefreshToken_of_error {errs : List Error} (h : v.parseToken L now token = .error errs)
    (hnot : Error.tokenExpired ∉ errs) :
    v.verifyRefreshToken L U now token = .error .invalidToken := by
  unfold JWTVerifier.verifyRefreshToken claimsOf
  rw [h]
  simp only [if_neg hnot]
  rfl

end

/-! ## What is written is read -/

section

variable {L : Library}

/-- A field of the embedded struct. -/
theorem JwtClaims.set_registered {c : JwtClaims} {name : String} (h : name ∈ RegisteredClaims.names)
    (v : Json) : c.set L name v = (L.set c.registered name v).map fun r => { c with registered := r } := by
  have hown : ∀ own ∈ ["tenant_id", "role", "token_type"], own ∉ RegisteredClaims.names := by decide
  unfold JwtClaims.set
  split
  · exact absurd h (hown _ (by decide))
  · exact absurd h (hown _ (by decide))
  · exact absurd h (hown _ (by decide))
  · rfl

/-- The members of the embedded struct go into it. -/
theorem JwtClaims.foldlM_members {ms : List (String × Json)} (h : ∀ m ∈ ms, m.1 ∈ RegisteredClaims.names)
    (c : JwtClaims) : ms.foldlM (Json.put names (set L)) c =
      (ms.foldlM (Json.put RegisteredClaims.names L.set) c.registered).map fun r =>
        { c with registered := r } := by
  induction ms generalizing c with
  | nil => rfl
  | cons m ms ih =>
    have hm : m.1 ∈ RegisteredClaims.names := h m List.mem_cons_self
    have hput : Json.put names (set L) c m = c.set L m.1 m.2 :=
      Json.put_of_mem (List.mem_append_right _ hm) c m.2
    have hput' : Json.put RegisteredClaims.names L.set c.registered m = L.set c.registered m.1 m.2 :=
      Json.put_of_mem hm c.registered m.2
    rw [List.foldlM_cons, List.foldlM_cons, hput, hput', set_registered hm]
    cases L.set c.registered m.1 m.2 with
    | none => rfl
    | some r => exact ih (fun m' hm' => h m' (List.mem_cons_of_mem _ hm')) { c with registered := r }

/-- **A struct is read back from its JSON**, if it names no audience and whole seconds only. -/
theorem JwtClaims.unmarshal_marshal {c : JwtClaims} (h : c.registered.Plain) :
    unmarshal L (c.marshal L) = some c := by
  have hread : (L.members c.registered).foldlM (Json.put RegisteredClaims.names L.set) .zero =
      some c.registered := L.unmarshal_members c.registered h
  obtain ⟨tenantID, role, tokenType, registered⟩ := c
  refine (Json.foldlM_omitEmpty (fun x => (⟨x, "", "", .zero⟩ : JwtClaims)) (by decide) rfl rfl).trans ?_
  refine (Json.foldlM_omitEmpty (fun x => (⟨tenantID, x, "", .zero⟩ : JwtClaims)) (by decide) rfl rfl).trans ?_
  rw [List.foldlM_cons, Json.put_of_mem (by decide)]
  show List.foldlM _ (⟨tenantID, role, tokenType, .zero⟩ : JwtClaims) _ = _
  rw [foldlM_members (L.mem_names registered), hread]
  rfl

/-! ## The tokens of the generator -/

variable {Key : Type} {key : Key} {kid : String} {now : Time} {c : JwtClaims}

/-- A struct with the fields that the generator sets. -/
structure Generated (c : JwtClaims) : Prop where
  plain : c.registered.Plain
  issuer : c.registered.issuer = "expense-saas"
  notBefore : c.registered.notBefore = none

theorem generated_accessClaims {U : Uuid.Package} (n : Time) (jti userID tenantID : Uuid) (role : Role) :
    Generated (accessClaims L U n jti userID tenantID role) :=
  ⟨⟨rfl, L.whole_newNumericDate _, whole_none, L.whole_newNumericDate _⟩, rfl, rfl⟩

theorem generated_refreshClaims {U : Uuid.Package} (n : Time) (jti userID : Uuid) :
    Generated (refreshClaims L U n jti userID) :=
  ⟨⟨rfl, L.whole_newNumericDate _, whole_none, L.whole_newNumericDate _⟩, rfl, rfl⟩

/-- With the right key and `kid`, a token of the generator is read as its claims, and as nothing
else. -/
theorem reads_sign (hc : Generated c) {claims : JwtClaims} :
    Reads L.getSigningMethod (JwtClaims.unmarshal L) (keyFunc key kid)
      (JWTGenerator.sign L ⟨key, kid⟩ c) claims ↔ claims = c := by
  have hread : JwtClaims.unmarshal L (c.marshal L) = some c := JwtClaims.unmarshal_marshal hc.plain
  constructor
  · intro h
    exact Option.some.inj (h.decoded.symm.trans hread)
  · intro h
    refine ⟨⟨_, SigningMethod.rs256, rfl, L.getSigningMethod_rs256, ?_⟩, h ▸ hread⟩
    show (if kid ≠ kid then none else some key) = some key
    rw [if_neg fun hne => hne rfl]

variable [DecidableEq Key]

/-- It is accepted from its issue to its expiry, give or take the leeway. -/
theorem parseToken_sign_ok {e i : Int} (hc : Generated c) (he : c.registered.expiresAt = some e)
    (hi : c.registered.issuedAt = some i) (hexp : now < e + 60 * Jwt.second)
    (hiat : i - 60 * Jwt.second ≤ now) :
    JWTVerifier.parseToken L ⟨key, kid⟩ now (.signed (JWTGenerator.sign L ⟨key, kid⟩ c)) =
      .ok ⟨c, true⟩ := by
  unfold JWTVerifier.parseToken
  rw [L.parse_eq_ok, reads_sign hc]
  refine ⟨rfl, ⟨?_, ?_, ?_, ?_, fun _ => hc.issuer⟩, rfl⟩
  · intro _ hnone
    rw [he] at hnone
    cases hnone
  · intro t ht
    cases he.symm.trans ht
    exact hexp
  · intro t ht
    cases hc.notBefore.symm.trans ht
  · intro _ t ht
    cases hi.symm.trans ht
    exact hiat

/-- It has expired from then on, and not before. -/
theorem parseToken_sign_expired {e : Int} (hc : Generated c) (he : c.registered.expiresAt = some e) :
    (∃ errs, JWTVerifier.parseToken L ⟨key, kid⟩ now (.signed (JWTGenerator.sign L ⟨key, kid⟩ c)) =
      .error errs ∧ Error.tokenExpired ∈ errs) ↔ e + 60 * Jwt.second ≤ now := by
  unfold JWTVerifier.parseToken
  rw [L.parse_expired]
  constructor
  · intro h
    obtain ⟨claims, hreads, t, ht, hle⟩ := h
    rw [(reads_sign hc).mp hreads, he] at ht
    cases ht
    exact hle
  · intro hle
    exact ⟨c, (reads_sign hc).mpr rfl, e, he, hle⟩

/-- And what is accepted passes the checks: nothing else is ever read from it. -/
theorem passes_of_parseToken_sign {p : Parsed JwtClaims} (hc : Generated c)
    (h : JWTVerifier.parseToken L ⟨key, kid⟩ now (.signed (JWTGenerator.sign L ⟨key, kid⟩ c)) = .ok p) :
    p.claims = c ∧ Passes parserOptions now c.registered := by
  unfold JWTVerifier.parseToken at h
  rw [L.parse_eq_ok, reads_sign hc] at h
  obtain ⟨hclaims, hpasses, _⟩ := h
  exact ⟨hclaims, hclaims ▸ hpasses⟩

end

end JWT

end ExpenseSaas
