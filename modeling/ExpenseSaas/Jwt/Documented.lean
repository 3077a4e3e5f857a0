import ExpenseSaas.Jwt.Token

/-!
# The package as documented

A `Jwt.Library` to run: `NumericDate` as a decimal number of seconds, the signing methods
on RSA keys, the steps of `Parser.ParseWithClaims` in their order, and the checks of
`Validator` one after the other. A date with a fraction of a second is not read.
-/

namespace Jwt

open Go

namespace Documented

/-! ## Dates -/

/-- `NewNumericDate`: down to the whole second. -/
def newNumericDate (t : Int) : Int := t - t % second

/-- A date is at most a second early. -/
theorem newNumericDate_bounds (t : Int) : newNumericDate t ≤ t ∧ t < newNumericDate t + second := by
  show t - t % 1000000000 ≤ t ∧ t < t - t % 1000000000 + 1000000000
  omega

theorem whole_newNumericDate (t : Int) : Whole (some (newNumericDate t)) := by
  intro t' h
  cases h
  refine ⟨t / 1000000000, ?_⟩
  show t - t % 1000000000 = t / 1000000000 * 1000000000
  omega

/-- A number of seconds in decimal. -/
def dateText : Int → List Char
  | .ofNat n => Nat.toDigits 10 n
  | .negSucc n => '-' :: Nat.toDigits 10 (n + 1)

/-- Digits, as a number. -/
def ofDigits (ds : List Char) : Option Nat :=
  if ds ≠ [] ∧ ds.all Char.isDigit then some (Nat.ofDigitChars 10 ds 0) else none

/-- The number of seconds. -/
def ofDateText : List Char → Option Int
  | '-' :: ds => (ofDigits ds).map Int.negOfNat
  | ds => (ofDigits ds).map Int.ofNat

theorem ofDigits_toDigits (n : Nat) : ofDigits (Nat.toDigits 10 n) = some n := by
  have hall : (Nat.toDigits 10 n).all Char.isDigit = true :=
    List.all_eq_true.mpr fun c hc => Nat.isDigit_of_mem_toDigits (by decide) (by decide) hc
  unfold ofDigits
  rw [if_pos ⟨Nat.toDigits_ne_nil, hall⟩, Nat.ofDigitChars_ten_toDigits]

theorem ofDateText_dateText (s : Int) : ofDateText (dateText s) = some s := by
  cases s with
  | ofNat n =>
    show ofDateText (Nat.toDigits 10 n) = _
    unfold ofDateText
    split
    · next ds heq =>
      -- the first digit would be the sign
      have hmem : '-' ∈ Nat.toDigits 10 n := by
        rw [heq]
        exact List.mem_cons_self
      have hdigit := Nat.isDigit_of_mem_toDigits (by decide) (by decide) hmem
      cases hdigit
    · rw [ofDigits_toDigits]
      rfl
  | negSucc n =>
    show (ofDigits (Nat.toDigits 10 (n + 1))).map Int.negOfNat = _
    rw [ofDigits_toDigits]
    rfl

/-- `NumericDate.MarshalJSON`. -/
def marshalDate (t : Time) : Json := .num (String.ofList (dateText (t / second)))

/-- `NumericDate.UnmarshalJSON`; a `json.Number` may also stand in a string. -/
def unmarshalDate : Json → Option Time
  | .num literal => (ofDateText literal.toList).map (· * second)
  | .str literal => (ofDateText literal.toList).map (· * second)
  | _ => none

theorem unmarshalDate_marshalDate (s : Int) :
    unmarshalDate (marshalDate (s * second)) = some (s * second) := by
  have hdiv : s * second / second = s := Int.mul_ediv_cancel s (by decide)
  unfold marshalDate
  rw [hdiv]
  show (ofDateText (String.ofList (dateText s)).toList).map _ = _
  rw [String.toList_ofList, ofDateText_dateText]
  rfl

/-! ## The claims as JSON -/

/-- `ClaimStrings.UnmarshalJSON`, which leaves what there was for `null`. -/
def unmarshalStrings (old : List String) : Json → Option (List String)
  | .null => some old
  | .str s => some [s]
  | .arr elements => elements.mapM Json.asString
  | _ => none

/-- A value for a date; `null` takes the date away. -/
def setDate : Json → Option (Option Time)
  | .null => some none
  | v => (unmarshalDate v).map some

/-- A value for a field. -/
def set (c : RegisteredClaims) (name : String) (v : Json) : Option RegisteredClaims :=
  match name with
  | "iss" => (Json.unmarshalString c.issuer v).map fun s => { c with issuer := s }
  | "sub" => (Json.unmarshalString c.subject v).map fun s => { c with subject := s }
  | "aud" => (unmarshalStrings c.audience v).map fun a => { c with audience := a }
  | "exp" => (setDate v).map fun t => { c with expiresAt := t }
  | "nbf" => (setDate v).map fun t => { c with notBefore := t }
  | "iat" => (setDate v).map fun t => { c with issuedAt := t }
  | "jti" => (Json.unmarshalString c.id v).map fun s => { c with id := s }
  | _ => some c

/-- A date with `omitempty`. -/
def omitDate (name : String) : Option Time → List (String × Json)
  | none => []
  | some t => [(name, marshalDate t)]

/-- `ClaimStrings.MarshalJSON` with `omitempty`. -/
def omitStrings (name : String) (ss : List String) : List (String × Json) :=
  if ss = [] then [] else [(name, .arr (ss.map .str))]

/-- The fields as `json.Marshal` writes them. -/
def members (c : RegisteredClaims) : List (String × Json) :=
  Json.omitEmpty "iss" c.issuer ++ (Json.omitEmpty "sub" c.subject ++
    (omitStrings "aud" c.audience ++ (omitDate "exp" c.expiresAt ++
      (omitDate "nbf" c.notBefore ++ (omitDate "iat" c.issuedAt ++
        Json.omitEmpty "jti" c.id)))))

theorem set_subject (c : RegisteredClaims) (name : String) (hname : name ≠ "sub") (s : String)
    (v : Json) : set { c with subject := s } name v =
      (set c name v).map fun r => { r with subject := s } := by
  unfold set
  split
  · rw [Option.map_map]
    rfl
  · exact absurd rfl hname
  · rw [Option.map_map]
    rfl
  · rw [Option.map_map]
    rfl
  · rw [Option.map_map]
    rfl
  · rw [Option.map_map]
    rfl
  · rw [Option.map_map]
    rfl
  · rfl

theorem name_of_mem_omitEmpty {name s : String} {m : String × Json}
    (h : m ∈ Json.omitEmpty name s) : m.1 = name := by
  unfold Json.omitEmpty at h
  split at h
  · cases h
  · rw [List.mem_singleton.mp h]

theorem name_of_mem_omitStrings {name : String} {ss : List String} {m : String × Json}
    (h : m ∈ omitStrings name ss) : m.1 = name := by
  unfold omitStrings at h
  split at h
  · cases h
  · rw [List.mem_singleton.mp h]

theorem name_of_mem_omitDate {name : String} {d : Option Time} {m : String × Json}
    (h : m ∈ omitDate name d) : m.1 = name := by
  cases d with
  | none => cases h
  | some t => rw [List.mem_singleton.mp h]

theorem mem_names (c : RegisteredClaims) : ∀ m ∈ members c, m.1 ∈ RegisteredClaims.names := by
  intro m h
  simp only [members, List.mem_append] at h
  rcases h with h | h | h | h | h | h | h
  · exact name_of_mem_omitEmpty h ▸ by decide
  · exact name_of_mem_omitEmpty h ▸ by decide
  · exact name_of_mem_omitStrings h ▸ by decide
  · exact name_of_mem_omitDate h ▸ by decide
  · exact name_of_mem_omitDate h ▸ by decide
  · exact name_of_mem_omitDate h ▸ by decide
  · exact name_of_mem_omitEmpty h ▸ by decide

theorem setDate_marshalDate {t : Time} (h : Whole (some t)) :
    setDate (marshalDate t) = some (some t) := by
  obtain ⟨s, rfl⟩ := h t rfl
  show (unmarshalDate (marshalDate (s * second))).map some = _
  rw [unmarshalDate_marshalDate]
  rfl

/-- A date that may have been left out; `f` puts it into the struct. -/
theorem foldlM_omitDate (f : Option Time → RegisteredClaims) {name : String} {d : Option Time}
    {s : RegisteredClaims} {rest : List (String × Json)} (hwhole : Whole d)
    (hmem : name ∈ RegisteredClaims.names) (hnone : f none = s)
    (hset : ∀ v, set s name v = (setDate v).map f) :
    (omitDate name d ++ rest).foldlM (Json.put RegisteredClaims.names set) s =
      rest.foldlM (Json.put RegisteredClaims.names set) (f d) := by
  cases d with
  | none =>
    rw [hnone]
    rfl
  | some t =>
    show List.foldlM _ s ((name, marshalDate t) :: rest) = _
    rw [List.foldlM_cons, Json.put_of_mem hmem, hset, setDate_marshalDate hwhole]
    rfl

/-- What is written is read: one field after the other gets its value. -/
theorem unmarshal_members (c : RegisteredClaims) (h : c.Plain) :
    Json.unmarshal RegisteredClaims.names set .zero (.obj (members c)) = some c := by
  obtain ⟨iss, sub, aud, exp, nbf, iat, jti⟩ := c
  obtain ⟨haud, hexp, hnbf, hiat⟩ := h
  cases haud
  refine (Json.foldlM_omitEmpty (fun x => (⟨x, "", [], none, none, none, ""⟩ : RegisteredClaims))
    (by decide) rfl rfl).trans ?_
  refine (Json.foldlM_omitEmpty (fun x => (⟨iss, x, [], none, none, none, ""⟩ : RegisteredClaims))
    (by decide) rfl rfl).trans ?_
  refine (foldlM_omitDate (fun x => (⟨iss, sub, [], x, none, none, ""⟩ : RegisteredClaims))
    hexp (by decide) rfl fun v => rfl).trans ?_
  refine (foldlM_omitDate (fun x => (⟨iss, sub, [], exp, x, none, ""⟩ : RegisteredClaims))
    hnbf (by decide) rfl fun v => rfl).trans ?_
  refine (foldlM_omitDate (fun x => (⟨iss, sub, [], exp, nbf, x, ""⟩ : RegisteredClaims))
    hiat (by decide) rfl fun v => rfl).trans ?_
  rw [← List.append_nil (Json.omitEmpty "jti" _)]
  exact Json.foldlM_omitEmpty (fun x => (⟨iss, sub, [], exp, nbf, iat, x⟩ : RegisteredClaims))
    (by decide) rfl rfl

/-! ## The checks -/

/-- `verifyExpiresAt`. -/
def verifyExpiresAt (o : ParserOptions) (now : Time) (c : RegisteredClaims) : List Error :=
  match c.expiresAt with
  | none => if o.expirationRequired then [.tokenRequiredClaimMissing] else []
  | some t => if now < t + o.leeway then [] else [.tokenExpired]

/-- `verifyNotBefore`. -/
def verifyNotBefore (o : ParserOptions) (now : Time) (c : RegisteredClaims) : List Error :=
  match c.notBefore with
  | none => []
  | some t => if t - o.leeway ≤ now then [] else [.tokenNotValidYet]

/-- `verifyIssuedAt`, if it is asked for. -/
def verifyIssuedAt (o : ParserOptions) (now : Time) (c : RegisteredClaims) : List Error :=
  match o.issuedAt, c.issuedAt with
  | true, some t => if t - o.leeway ≤ now then [] else [.tokenUsedBeforeIssued]
  | _, _ => []

/-- `verifyIssuer`, if one is expected. -/
def verifyIssuer (o : ParserOptions) (c : RegisteredClaims) : List Error :=
  if o.issuer = "" ∨ c.issuer = o.issuer then []
  else if c.issuer = "" then [.tokenRequiredClaimMissing]
  else [.tokenInvalidIssuer]

/-- `Validator.Validate`. -/
def validate (o : ParserOptions) (now : Time) (c : RegisteredClaims) : List Error :=
  verifyExpiresAt o now c ++ (verifyNotBefore o now c ++ (verifyIssuedAt o now c ++ verifyIssuer o c))

section

variable {o : ParserOptions} {now : Time} {c : RegisteredClaims}

theorem verifyExpiresAt_eq_nil : verifyExpiresAt o now c = [] ↔
    (o.expirationRequired = true → c.expiresAt ≠ none) ∧
      ∀ t, c.expiresAt = some t → now < t + o.leeway := by
  unfold verifyExpiresAt
  cases c.expiresAt with
  | none => simp
  | some t => simp

theorem verifyNotBefore_eq_nil : verifyNotBefore o now c = [] ↔
    ∀ t, c.notBefore = some t → t - o.leeway ≤ now := by
  unfold verifyNotBefore
  cases c.notBefore with
  | none => simp
  | some t => simp

theorem verifyIssuedAt_eq_nil : verifyIssuedAt o now c = [] ↔
    (o.issuedAt = true → ∀ t, c.issuedAt = some t → t - o.leeway ≤ now) := by
  unfold verifyIssuedAt
  cases o.issuedAt with
  | false => simp
  | true =>
    cases c.issuedAt with
    | none => simp
    | some t => simp

theorem verifyIssuer_eq_nil : verifyIssuer o c = [] ↔ (o.issuer ≠ "" → c.issuer = o.issuer) := by
  unfold verifyIssuer
  by_cases h : o.issuer = "" ∨ c.issuer = o.issuer
  · rw [if_pos h]
    exact ⟨fun _ hne => h.resolve_left hne, fun _ => rfl⟩
  · rw [if_neg h]
    refine ⟨fun heq => ?_, fun hne => absurd (Decidable.or_iff_not_imp_left.mpr hne) h⟩
    split at heq
    · cases heq
    · cases heq

theorem validate_eq_nil : validate o now c = [] ↔ Passes o now c := by
  unfold validate
  rw [List.append_eq_nil_iff, List.append_eq_nil_iff, List.append_eq_nil_iff,
    verifyExpiresAt_eq_nil, verifyNotBefore_eq_nil, verifyIssuedAt_eq_nil, verifyIssuer_eq_nil]
  constructor
  · rintro ⟨⟨hreq, hexp⟩, hnbf, hiat, hiss⟩
    exact ⟨hreq, hexp, hnbf, hiat, hiss⟩
  · intro h
    exact ⟨⟨h.required, h.expiresAt⟩, h.notBefore, h.issuedAt, h.issuer⟩

/-- Only one of the checks is for expiry. -/
theorem expired_mem_validate : Error.tokenExpired ∈ validate o now c ↔
    ∃ t, c.expiresAt = some t ∧ t + o.leeway ≤ now := by
  have hnbf : Error.tokenExpired ∉ verifyNotBefore o now c := by
    unfold verifyNotBefore
    grind
  have hiat : Error.tokenExpired ∉ verifyIssuedAt o now c := by
    unfold verifyIssuedAt
    grind
  have hiss : Error.tokenExpired ∉ verifyIssuer o c := by
    unfold verifyIssuer
    grind
  have hexp : Error.tokenExpired ∈ verifyExpiresAt o now c ↔
      ∃ t, c.expiresAt = some t ∧ t + o.leeway ≤ now := by
    unfold verifyExpiresAt
    cases c.expiresAt with
    | none => simp
    | some t => simp
  unfold validate
  rw [List.mem_append, List.mem_append, List.mem_append, hexp]
  simp [hnbf, hiat, hiss]

end

/-! ## Parsing -/

/-- The signing methods on RSA keys. -/
def rsaMethods : List SigningMethod :=
  [⟨"RS256", true⟩, ⟨"RS384", true⟩, ⟨"RS512", true⟩]

/-- `GetSigningMethod`. -/
def getSigningMethod (alg : String) : Option SigningMethod := rsaMethods.find? fun m => m.alg = alg

section

variable {Key C : Type} [DecidableEq Key]

/-- `ParseUnverified`, the key and the signature: the claims, before they are checked. -/
def readClaims (decode : Json → Option C) (keyFunc : Keyfunc Key) (token : Token Key) :
    Except (List Error) C := do
  let header ← orError [.tokenMalformed] token.header.toMap
  let claims ← orError [.tokenMalformed] (decode token.payload)
  let method ← orError [.tokenUnverifiable] (methodOf getSigningMethod header)
  let key ← orError [.tokenUnverifiable] (keyFunc method header)
  if key = token.key then .ok claims else .error [.tokenSignatureInvalid]

/-- The claims are checked last. -/
def validateClaims (o : ParserOptions) (now : Time) (registered : C → RegisteredClaims) (claims : C) :
    Except (List Error) (Parsed C) :=
  match validate o now (registered claims) with
  | [] => .ok ⟨claims, true⟩
  | errs => .error (.tokenInvalidClaims :: errs)

/-- `ParseWithClaims`. -/
def parseWithClaims (decode : Json → Option C) (registered : C → RegisteredClaims)
    (keyFunc : Keyfunc Key) (o : ParserOptions) (now : Time) :
    TokenText Key → Except (List Error) (Parsed C)
  | .malformed _ => .error [.tokenMalformed]
  | .signed token => readClaims decode keyFunc token >>= validateClaims o now registered

variable {o : ParserOptions} {now : Time} {decode : Json → Option C}
  {registered : C → RegisteredClaims} {keyFunc : Keyfunc Key}
  {token : Token Key}

theorem readClaims_eq_ok {claims : C} : readClaims decode keyFunc token = .ok claims ↔
    Reads getSigningMethod decode keyFunc token claims := by
  unfold readClaims
  simp only [Except.bind_eq_ok, orError_eq_ok]
  constructor
  · intro h
    obtain ⟨header, hheader, claims', hclaims, m, hm, key, hkey, h⟩ := h
    by_cases heq : key = token.key
    · rw [if_pos heq] at h
      cases h
      exact ⟨⟨header, m, hheader, hm, heq ▸ hkey⟩, hclaims⟩
    · rw [if_neg heq] at h
      cases h
  · intro h
    obtain ⟨⟨header, m, hheader, hm, hkey⟩, hclaims⟩ := h
    exact ⟨header, hheader, claims, hclaims, m, hm, token.key, hkey, if_pos rfl⟩

theorem orError_bind_unexpired {α β : Type} {e : List Error} {x : Option α}
    {f : α → Except (List Error) β} (he : Error.tokenExpired ∉ e)
    (h : ∀ a errs, f a = .error errs → Error.tokenExpired ∉ errs) :
    ∀ errs, orError e x >>= f = .error errs → Error.tokenExpired ∉ errs := by
  intro errs herrs
  cases x with
  | none =>
    cases herrs
    exact he
  | some a => exact h a errs herrs

/-- Nothing says that a token has expired before its claims are checked. -/
theorem unexpired_of_readClaims {errs : List Error} (h : readClaims decode keyFunc token = .error errs) :
    Error.tokenExpired ∉ errs := by
  refine orError_bind_unexpired (by decide) (fun header => ?_) errs h
  refine orError_bind_unexpired (by decide) fun claims => ?_
  refine orError_bind_unexpired (by decide) fun m => ?_
  refine orError_bind_unexpired (by decide) fun key errs herrs => ?_
  split at herrs
  · cases herrs
  · cases herrs
    decide

theorem validateClaims_eq_ok {claims : C} {p : Parsed C} :
    validateClaims o now registered claims = .ok p ↔
      p = ⟨claims, true⟩ ∧ Passes o now (registered claims) := by
  rw [← validate_eq_nil]
  unfold validateClaims
  cases validate o now (registered claims) with
  | nil => simp [eq_comm]
  | cons e errs => simp

theorem validateClaims_expired {claims : C} :
    (∃ errs, validateClaims o now registered claims = .error errs ∧ Error.tokenExpired ∈ errs) ↔
      ∃ t, (registered claims).expiresAt = some t ∧ t + o.leeway ≤ now := by
  rw [← expired_mem_validate]
  unfold validateClaims
  cases validate o now (registered claims) with
  | nil => simp
  | cons e errs => simp

theorem parse_eq_ok {p : Parsed C} :
    parseWithClaims decode registered keyFunc o now (.signed token) = .ok p ↔
      Reads getSigningMethod decode keyFunc token p.claims ∧ Passes o now (registered p.claims) ∧
        p.valid = true := by
  show readClaims decode keyFunc token >>= validateClaims o now registered = .ok p ↔ _
  simp only [Except.bind_eq_ok, readClaims_eq_ok, validateClaims_eq_ok]
  constructor
  · intro h
    obtain ⟨claims, hreads, hp, hpasses⟩ := h
    rw [hp]
    exact ⟨hreads, hpasses, rfl⟩
  · intro h
    obtain ⟨hreads, hpasses, hvalid⟩ := h
    exact ⟨p.claims, hreads, by rw [← hvalid], hpasses⟩

theorem parse_expired :
    (∃ errs, parseWithClaims decode registered keyFunc o now (.signed token) = .error errs ∧
        Error.tokenExpired ∈ errs) ↔
      ∃ claims, Reads getSigningMethod decode keyFunc token claims ∧
        ∃ t, (registered claims).expiresAt = some t ∧ t + o.leeway ≤ now := by
  simp only [← readClaims_eq_ok, ← validateClaims_expired]
  show (∃ errs, readClaims decode keyFunc token >>= validateClaims o now registered = .error errs ∧ _) ↔ _
  cases hread : readClaims decode keyFunc token with
  | error errs =>
    have hnot : Error.tokenExpired ∉ errs := unexpired_of_readClaims hread
    simpa [bind, Except.bind] using hnot
  | ok claims => simp [bind, Except.bind]

end

end Documented

/-- The package as documented. -/
def Library.documented : Library where
  getSigningMethod := Documented.getSigningMethod
  newNumericDate := Documented.newNumericDate
  set := Documented.set
  members := Documented.members
  parseWithClaims := Documented.parseWithClaims
  getSigningMethod_rs256 := by decide
  newNumericDate_bounds := Documented.newNumericDate_bounds
  whole_newNumericDate := Documented.whole_newNumericDate
  set_sub _ _ := rfl
  set_subject := Documented.set_subject
  mem_names := Documented.mem_names
  unmarshal_members := Documented.unmarshal_members
  parse_malformed _ _ _ _ _ _ := ⟨_, rfl, by decide⟩
  parse_eq_ok _ _ _ _ _ _ _ := Documented.parse_eq_ok
  parse_expired _ _ _ _ _ _ := Documented.parse_expired

end Jwt
