import ExpenseSaas.Basic
import ExpenseSaas.Go.Json

/-!
# Signed tokens

`github.com/golang-jwt/jwt/v5` as far as it is needed. A token is what was signed, that
is its header and its claims, and the key it was signed with, so that no token is signed
with a key by anybody who does not have it.

How the package reads a token, its date and its claims is the package's own
(`Jwt.Library`), and what is used of it are the laws that go with it: a date is the whole
second before a time, the claims are read back from their JSON, and a token is accepted if
the key function gives the key it was signed with and the claims pass the documented
checks, by the whole second and with the leeway.

Two structs for the claims that are filled alike are accepted and refused alike
(`Library.parse_alike`, `Library.expired_alike`).
-/

namespace Jwt

open Go

/-- `time.Time`, in nanoseconds. -/
abbrev Time : Type := Int

/-- `time.Duration`, in nanoseconds. -/
abbrev Duration : Type := Int

/-- `time.Second`. -/
def second : Int := 1000000000

/-- A date that is there is a whole second. -/
def Whole (d : Option Time) : Prop := ∀ t, d = some t → ∃ s : Int, t = s * second

theorem whole_none : Whole none := by
  intro t h
  cases h

/-- `RegisteredClaims`. -/
structure RegisteredClaims where
  issuer : String
  subject : String
  audience : List String
  expiresAt : Option Time
  notBefore : Option Time
  issuedAt : Option Time
  id : String
  deriving DecidableEq

/-- No claims. -/
def RegisteredClaims.zero : RegisteredClaims := ⟨"", "", [], none, none, none, ""⟩

/-- The names of the fields. -/
def RegisteredClaims.names : List String := ["iss", "sub", "aud", "exp", "nbf", "iat", "jti"]

/-- Claims that name no audience, and whole seconds only. -/
structure RegisteredClaims.Plain (c : RegisteredClaims) : Prop where
  audience : c.audience = []
  expiresAt : Whole c.expiresAt
  notBefore : Whole c.notBefore
  issuedAt : Whole c.issuedAt

/-- What `errors.Is` finds in an error of the package. -/
inductive Error where
  | tokenMalformed
  | tokenUnverifiable
  | tokenSignatureInvalid
  | tokenInvalidClaims
  | tokenRequiredClaimMissing
  | tokenExpired
  | tokenUsedBeforeIssued
  | tokenNotValidYet
  | tokenInvalidIssuer
  deriving DecidableEq

/-- `SigningMethod`: its name, and whether it is a `*SigningMethodRSA`. -/
structure SigningMethod where
  alg : String
  rsa : Bool
  deriving DecidableEq

/-- `SigningMethodRS256`. -/
def SigningMethod.rs256 : SigningMethod := ⟨"RS256", true⟩

/-- The options of the parser. -/
structure ParserOptions where
  /-- `WithIssuedAt`. -/
  issuedAt : Bool
  /-- `WithIssuer`, unless it is empty. -/
  issuer : String
  /-- `WithExpirationRequired`. -/
  expirationRequired : Bool
  /-- `WithLeeway`. -/
  leeway : Duration

/-- The registered claims pass the checks at a time. -/
structure Passes (o : ParserOptions) (now : Time) (c : RegisteredClaims) : Prop where
  required : o.expirationRequired = true → c.expiresAt ≠ none
  expiresAt : ∀ t, c.expiresAt = some t → now < t + o.leeway
  notBefore : ∀ t, c.notBefore = some t → t - o.leeway ≤ now
  issuedAt : o.issuedAt = true → ∀ t, c.issuedAt = some t → t - o.leeway ≤ now
  issuer : o.issuer ≠ "" → c.issuer = o.issuer

/-- A token: what is signed, and the key it is signed with. -/
structure Token (Key : Type) where
  header : Json
  payload : Json
  key : Key

/-- The text of a token; it may be none. -/
inductive TokenText (Key : Type) where
  | signed (token : Token Key)
  | malformed (text : String)

/-- `Token`, as far as a parsed one is asked. -/
structure Parsed (C : Type) where
  claims : C
  valid : Bool

/-- `Keyfunc`: the key for a signing method and a header. -/
abbrev Keyfunc (Key : Type) : Type := SigningMethod → List (String × Json) → Option Key

section

variable {Key C : Type}

/-- The signing method a header names. -/
def methodOf (getSigningMethod : String → Option SigningMethod) (header : List (String × Json)) :
    Option SigningMethod := do
  let alg ← Json.index header "alg"
  getSigningMethod (← alg.asString)

/-- The header names a method and gets the key the token was signed with, and the payload is
the claims. -/
structure Reads (getSigningMethod : String → Option SigningMethod) (decode : Json → Option C)
    (keyFunc : Keyfunc Key) (token : Token Key) (claims : C) : Prop where
  verified : ∃ header m, token.header.toMap = some header ∧ methodOf getSigningMethod header = some m ∧
    keyFunc m header = some token.key
  decoded : decode token.payload = some claims

end

/-- The package. -/
structure Library where
  /-- `GetSigningMethod`. -/
  getSigningMethod : String → Option SigningMethod
  /-- `NewNumericDate`. -/
  newNumericDate : Int → Int
  /-- A value for a field of `RegisteredClaims`, as `json.Unmarshal` puts it there. -/
  set : RegisteredClaims → String → Json → Option RegisteredClaims
  /-- The fields of `RegisteredClaims`, as `json.Marshal` writes them. -/
  members : RegisteredClaims → List (String × Json)
  /-- `ParseWithClaims`. -/
  parseWithClaims {Key C : Type} [DecidableEq Key] (decode : Json → Option C)
    (registered : C → RegisteredClaims) (keyFunc : Keyfunc Key) (o : ParserOptions) (now : Time) :
    TokenText Key → Except (List Error) (Parsed C)
  getSigningMethod_rs256 : getSigningMethod SigningMethod.rs256.alg = some SigningMethod.rs256
  newNumericDate_bounds : ∀ t, newNumericDate t ≤ t ∧ t < newNumericDate t + second
  whole_newNumericDate : ∀ t, Whole (some (newNumericDate t))
  set_sub : ∀ c v, set c "sub" v =
    (Json.unmarshalString c.subject v).map fun s => { c with subject := s }
  /-- But for the subject itself the struct is filled alike whatever the subject is. -/
  set_subject : ∀ (c : RegisteredClaims) name, name ≠ "sub" → ∀ s v,
    set { c with subject := s } name v = (set c name v).map fun r => { r with subject := s }
  mem_names : ∀ c, ∀ m ∈ members c, m.1 ∈ RegisteredClaims.names
  unmarshal_members : ∀ c : RegisteredClaims, c.Plain →
    Json.unmarshal RegisteredClaims.names set .zero (.obj (members c)) = some c
  parse_malformed {Key C : Type} [DecidableEq Key] (decode : Json → Option C)
    (registered : C → RegisteredClaims) (keyFunc : Keyfunc Key) (o : ParserOptions) (now : Time)
    (text : String) :
    ∃ errs, parseWithClaims decode registered keyFunc o now (.malformed text) = .error errs ∧
      Error.tokenExpired ∉ errs
  parse_eq_ok {Key C : Type} [DecidableEq Key] (decode : Json → Option C)
    (registered : C → RegisteredClaims) (keyFunc : Keyfunc Key) (o : ParserOptions) (now : Time)
    (token : Token Key) (p : Parsed C) :
    parseWithClaims decode registered keyFunc o now (.signed token) = .ok p ↔
      Reads getSigningMethod decode keyFunc token p.claims ∧ Passes o now (registered p.claims) ∧
        p.valid = true
  /-- Expiry is reported of a token whose claims are looked at, and of no other. -/
  parse_expired {Key C : Type} [DecidableEq Key] (decode : Json → Option C)
    (registered : C → RegisteredClaims) (keyFunc : Keyfunc Key) (o : ParserOptions) (now : Time)
    (token : Token Key) :
    (∃ errs, parseWithClaims decode registered keyFunc o now (.signed token) = .error errs ∧
        Error.tokenExpired ∈ errs) ↔
      ∃ claims, Reads getSigningMethod decode keyFunc token claims ∧
        ∃ t, (registered claims).expiresAt = some t ∧ t + o.leeway ≤ now

/-- A value, or an error. -/
def orError {ε α : Type} (e : ε) : Option α → Except ε α
  | some a => .ok a
  | none => .error e

theorem orError_eq_ok {ε α : Type} {e : ε} {x : Option α} {a : α} :
    orError e x = .ok a ↔ x = some a := by
  cases x with
  | none => simp [orError]
  | some a => simp [orError]

/-! ## Two structs for the claims -/

section

variable {Key C D : Type} {L : Library} {o : ParserOptions} {now : Time}
  {decode : Json → Option C} {registered : C → RegisteredClaims} {f : C → D}
  {decode' : Json → Option D} {registered' : D → RegisteredClaims}
  {keyFunc : Keyfunc Key} {token : Token Key}

/-- The checks of the claims do not look at the subject. -/
theorem passes_congr {c c' : RegisteredClaims} (h : c' = { c with subject := c'.subject }) :
    Passes o now c' ↔ Passes o now c := by
  rw [h]
  exact ⟨fun hp => ⟨hp.1, hp.2, hp.3, hp.4, hp.5⟩, fun hp => ⟨hp.1, hp.2, hp.3, hp.4, hp.5⟩⟩

/-- What is read into the one struct is read into the other. -/
theorem reads_alike {get : String → Option SigningMethod} {d : D}
    (hdecode : ∀ v, decode' v = (decode v).map f) :
    Reads get decode' keyFunc token d ↔ ∃ c, Reads get decode keyFunc token c ∧ f c = d := by
  constructor
  · intro h
    have hdecoded := h.decoded
    rw [hdecode] at hdecoded
    obtain ⟨c, hc, hcd⟩ := Option.map_eq_some_iff.mp hdecoded
    exact ⟨c, ⟨h.verified, hc⟩, hcd⟩
  · intro h
    obtain ⟨c, h, hcd⟩ := h
    refine ⟨h.verified, ?_⟩
    rw [hdecode, h.decoded, Option.map_some, hcd]

variable [DecidableEq Key]

/-- A text that is no token is not accepted. -/
theorem Library.parse_malformed_ne_ok {text : String} {p : Parsed C} :
    L.parseWithClaims decode registered keyFunc o now (.malformed text) ≠ .ok p := by
  obtain ⟨errs, herrs, _⟩ := L.parse_malformed decode registered keyFunc o now text
  rw [herrs]
  intro h
  cases h

/-- Nor has it expired. -/
theorem Library.not_expired_malformed {text : String} :
    ¬∃ errs, L.parseWithClaims decode registered keyFunc o now (.malformed text) = .error errs ∧
      Error.tokenExpired ∈ errs := by
  obtain ⟨errs, herrs, hnot⟩ := L.parse_malformed decode registered keyFunc o now text
  intro h
  obtain ⟨errs', herrs', hmem⟩ := h
  cases herrs.symm.trans herrs'
  exact hnot hmem

/-- **Structs that are filled alike are accepted alike.** -/
theorem Library.parse_alike {d : D} {token : TokenText Key} (hdecode : ∀ v, decode' v = (decode v).map f)
    (hreg : ∀ c, registered' (f c) = { registered c with subject := (registered' (f c)).subject }) :
    L.parseWithClaims decode' registered' keyFunc o now token = .ok ⟨d, true⟩ ↔
      ∃ c, L.parseWithClaims decode registered keyFunc o now token = .ok ⟨c, true⟩ ∧ f c = d := by
  cases token with
  | malformed text =>
    refine iff_of_false L.parse_malformed_ne_ok ?_
    intro h
    obtain ⟨c, hc, _⟩ := h
    exact L.parse_malformed_ne_ok hc
  | signed token =>
    simp only [L.parse_eq_ok, and_true]
    rw [reads_alike hdecode]
    constructor
    · intro h
      obtain ⟨⟨c, hc, hcd⟩, hpasses⟩ := h
      rw [← hcd, passes_congr (hreg c)] at hpasses
      exact ⟨c, ⟨hc, hpasses⟩, hcd⟩
    · intro h
      obtain ⟨c, ⟨hc, hpasses⟩, hcd⟩ := h
      refine ⟨⟨c, hc, hcd⟩, ?_⟩
      rw [← hcd, passes_congr (hreg c)]
      exact hpasses

/-- **And the same tokens have expired.** -/
theorem Library.expired_alike {token : TokenText Key} (hdecode : ∀ v, decode' v = (decode v).map f)
    (hreg : ∀ c, registered' (f c) = { registered c with subject := (registered' (f c)).subject }) :
    (∃ errs, L.parseWithClaims decode' registered' keyFunc o now token = .error errs ∧
        Error.tokenExpired ∈ errs) ↔
      ∃ errs, L.parseWithClaims decode registered keyFunc o now token = .error errs ∧
        Error.tokenExpired ∈ errs := by
  have hexpiresAt : ∀ c, (registered' (f c)).expiresAt = (registered c).expiresAt := by
    intro c
    rw [hreg c]
  cases token with
  | malformed text => exact iff_of_false L.not_expired_malformed L.not_expired_malformed
  | signed token =>
    rw [L.parse_expired, L.parse_expired]
    constructor
    · intro h
      obtain ⟨d, hd, t, ht, hle⟩ := h
      obtain ⟨c, hc, rfl⟩ := (reads_alike hdecode).mp hd
      rw [hexpiresAt] at ht
      exact ⟨c, hc, t, ht, hle⟩
    · intro h
      obtain ⟨c, hc, t, ht, hle⟩ := h
      rw [← hexpiresAt] at ht
      exact ⟨f c, (reads_alike hdecode).mpr ⟨c, hc, rfl⟩, t, ht, hle⟩

end

end Jwt
