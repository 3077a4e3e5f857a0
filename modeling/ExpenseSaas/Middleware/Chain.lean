import ExpenseSaas.Middleware.Visits

/-!
# The chain of limiters

The middleware chain of `cmd/server/main.go`, as far as it answers 429. Every
request passes the limiter by address, and a private route the limiter by user
behind it, once `Auth` and `TenantContext` have let it through. Each limiter is
cleaned up in its own time.

No request of a user is refused if the one by address refuses none, since it is the
stricter of the two (`unlimited_of_room`). The limiters are those of any library that
documents token buckets; what its floating point does to them is less than a
nanosecond in three seconds.
-/

namespace ExpenseSaas

namespace Middleware

open Rate (Time Duration Library)

/-- `time.Minute`. -/
def minute : Duration := 60 * Rate.second

/-- The default of `UNAUTH_RATE_LIMIT_PER_MINUTE`. -/
def unauthRateLimitPerMinute : Int := 20

/-- The limit of private routes, in requests per minute. -/
def userRateLimitPerMinute : Int := 100

/-- A request to a private route, as the limiters see it. -/
structure PrivateRequest where
  id : Nat
  /-- What `remoteIP` finds. -/
  ip : String
  /-- The claims of the token. -/
  userID : String
  tenantID : String
  time : Time
  /-- `TenantContext` has opened the transaction of the request. -/
  served : Bool
  deriving DecidableEq

/-- The key of `RateLimitByIP`. -/
def PrivateRequest.byIP (r : PrivateRequest) : LimitedRequest String := ⟨r.id, r.ip⟩

/-- The key of `RateLimitByUser`: users of different tenants never share one. -/
def PrivateRequest.byUser (r : PrivateRequest) : LimitedRequest String :=
  let key := if r.userID = "" then "ip:" ++ r.ip else r.userID
  ⟨r.id, if r.tenantID = "" then key else r.tenantID ++ ":" ++ key⟩

/-- What happens: a request, or a cleanup that comes to a key. -/
inductive Traffic where
  | request (r : PrivateRequest)
  | cleanupIP (key : String) (started : Time) (later : Nat)
  | cleanupUser (key : String) (started : Time) (later : Nat)

def Traffic.time : Traffic → Time
  | .request r => r.time
  | .cleanupIP _ started later => started + later
  | .cleanupUser _ started later => started + later

/-- The limiters of the chain. -/
structure Limiters (lib : Library) where
  byIP : Limiting lib String
  byUser : Limiting lib String

namespace Limiters

variable {lib : Library}

/-- The limiters of `main`. -/
def new (lib : Library) : Limiters lib :=
  ⟨.new lib unauthRateLimitPerMinute minute, .new lib userRateLimitPerMinute minute⟩

/-- The chain for one request, and whether it is answered 429. -/
def request (c : Limiters lib) (r : PrivateRequest) : Bool × Limiters lib :=
  let ip := c.byIP.limits r.byIP r.time
  if ip.1 then (true, { c with byIP := ip.2 })
  else if !r.served then (false, { c with byIP := ip.2 })
  else
    let user := c.byUser.limits r.byUser r.time
    (user.1, ⟨ip.2, user.2⟩)

/-- Which requests are answered 429. -/
def run : Limiters lib → List Traffic → List Bool
  | _, [] => []
  | c, .request r :: es => (c.request r).1 :: run (c.request r).2 es
  | c, .cleanupIP key started later :: es =>
      run { c with byIP := (c.byIP.step (.evict key started later)).1 } es
  | c, .cleanupUser key started later :: es =>
      run { c with byUser := (c.byUser.step (.evict key started later)).1 } es

end Limiters

/-! ## Each limiter for itself -/

/-- What the limiter by address sees. -/
def Traffic.ipVisit? : Traffic → Option Visit
  | .request r => some (.request r.byIP r.time)
  | .cleanupIP key started later => some (.cleanup key started later)
  | .cleanupUser .. => none

/-- What the limiter by user sees if the one before it refuses nothing. -/
def Traffic.userVisit? : Traffic → Option Visit
  | .request r => if r.served then some (.request r.byUser r.time) else none
  | .cleanupIP .. => none
  | .cleanupUser key started later => some (.cleanup key started later)

/-- The chain refuses nothing if each limiter refuses nothing of what it sees. -/
theorem run_false_iff {lib : Library} {c : Limiters lib} {es : List Traffic} :
    (∀ b ∈ c.run es, b = false) ↔
      c.byIP.Grants (es.filterMap Traffic.ipVisit?) ∧ c.byUser.Grants (es.filterMap Traffic.userVisit?) := by
  induction es generalizing c with
  | nil => exact iff_of_true (fun _ h => by cases h) ⟨trivial, trivial⟩
  | cons e es ih =>
    cases e with
    | cleanupIP key started later =>
      show _ ↔ c.byIP.Grants (.cleanup key started later :: es.filterMap Traffic.ipVisit?) ∧ _
      rw [grants_cleanup]
      exact ih
    | cleanupUser key started later =>
      show _ ↔ _ ∧ c.byUser.Grants (.cleanup key started later :: es.filterMap Traffic.userVisit?)
      rw [grants_cleanup]
      exact ih
    | request r =>
      show (∀ b ∈ (c.request r).1 :: (c.request r).2.run es, b = false) ↔
        c.byIP.Grants (.request r.byIP r.time :: es.filterMap Traffic.ipVisit?) ∧ _
      rw [List.forall_mem_cons, ih, grants_request]
      unfold Limiters.request
      by_cases hip : (c.byIP.limits r.byIP r.time).1 = true
      · simp [hip]
      · rw [Bool.not_eq_true] at hip
        cases hserved : r.served with
        | false => simp [hip, Traffic.userVisit?, hserved]
        | true =>
          have huser : (Traffic.request r :: es).filterMap Traffic.userVisit? =
              .request r.byUser r.time :: es.filterMap Traffic.userVisit? :=
            List.filterMap_cons_some (by simp [Traffic.userVisit?, hserved])
          rw [huser, grants_request]
          simp only [hip, Bool.false_eq_true, if_false, Bool.not_true]
          constructor
          · rintro ⟨huser, hip, hrest⟩
            exact ⟨⟨trivial, hip⟩, huser, hrest⟩
          · rintro ⟨⟨_, hip⟩, huser, hrest⟩
            exact ⟨huser, hip, hrest⟩

/-! ## The requests of a user -/

/-- The request of an event, if it is one. -/
def Traffic.request? : Traffic → Option PrivateRequest
  | .request r => some r
  | _ => none

/-- The requests among all that happens. -/
def requestsOf (es : List Traffic) : List PrivateRequest := es.filterMap Traffic.request?

/-- The times of the requests. -/
def timesOf (es : List Traffic) : List Time := (requestsOf es).map PrivateRequest.time

section

variable {ip userID tenantID : String} {es : List Traffic}

/-- The requests of a user from an address. -/
def OfUser (ip userID tenantID : String) (es : List Traffic) : Prop :=
  ∀ r ∈ requestsOf es, r.ip = ip ∧ r.userID = userID ∧ r.tenantID = tenantID

instance : Decidable (OfUser ip userID tenantID es) :=
  inferInstanceAs (Decidable (∀ r ∈ requestsOf es, r.ip = ip ∧ r.userID = userID ∧
    r.tenantID = tenantID))

theorem userVisit_eq_some {r : PrivateRequest} {v : Visit}
    (h : (Traffic.request r).userVisit? = some v) : v = .request r.byUser r.time := by
  simp only [Traffic.userVisit?] at h
  by_cases hserved : r.served = true
  · rw [if_pos hserved] at h
    exact (Option.some.inj h).symm
  · rw [if_neg hserved] at h
    cases h

theorem time_of_ipVisit {e : Traffic} {v : Visit} (h : e.ipVisit? = some v) : v.time = e.time := by
  cases e <;> cases h <;> rfl

theorem time_of_userVisit {e : Traffic} {v : Visit} (h : e.userVisit? = some v) : v.time = e.time := by
  cases e with
  | cleanupIP key started later => cases h
  | cleanupUser key started later =>
    cases h
    rfl
  | request r =>
    rw [userVisit_eq_some h]
    rfl

/-- What a limiter sees happens in order. -/
theorem pairwise_visits (hes : (es.map Traffic.time).Pairwise (· ≤ ·)) {f : Traffic → Option Visit}
    (hf : ∀ {e v}, f e = some v → v.time = e.time) : ((es.filterMap f).map Visit.time).Pairwise (· ≤ ·) := by
  rw [List.pairwise_map] at hes ⊢
  refine List.pairwise_filterMap.mpr (hes.imp fun {a b} hab v hv w hw => ?_)
  rw [hf hv, hf hw]
  exact hab

/-- The limiter by address sees every request. -/
theorem asked_ipVisits : (es.filterMap Traffic.ipVisit?).filterMap Visit.asked? = timesOf es := by
  unfold timesOf requestsOf
  rw [List.filterMap_filterMap, List.map_filterMap]
  refine List.filterMap_congr fun e _ => ?_
  cases e <;> rfl

/-- The limiter by user sees those that are served. -/
theorem asked_userVisits : (es.filterMap Traffic.userVisit?).filterMap Visit.asked? =
    ((requestsOf es).filter PrivateRequest.served).map PrivateRequest.time := by
  unfold requestsOf
  rw [List.filterMap_filterMap, List.filter_filterMap, List.map_filterMap]
  refine List.filterMap_congr fun e _ => ?_
  cases e with
  | cleanupIP key started later => rfl
  | cleanupUser key started later => rfl
  | request r => cases hserved : r.served <;> simp [Traffic.userVisit?, Traffic.request?, Visit.asked?, hserved]

theorem key_of_ipVisit (huser : OfUser ip userID tenantID es) :
    ∀ v ∈ es.filterMap Traffic.ipVisit?, ∀ q ∈ v.request?, q.key = ip := by
  intro v hv q hq
  obtain ⟨e, he, hv⟩ := List.mem_filterMap.mp hv
  cases e with
  | cleanupIP key started later =>
    cases hv
    cases hq
  | cleanupUser key started later => cases hv
  | request r =>
    cases hv
    cases hq
    exact (huser r (List.mem_filterMap.mpr ⟨_, he, rfl⟩)).1

theorem key_of_userVisit (huser : OfUser ip userID tenantID es) :
    ∀ v ∈ es.filterMap Traffic.userVisit?, ∀ q ∈ v.request?,
      q.key = (PrivateRequest.byUser ⟨0, ip, userID, tenantID, 0, true⟩).key := by
  intro v hv q hq
  obtain ⟨e, he, hv⟩ := List.mem_filterMap.mp hv
  cases e with
  | cleanupIP key started later => cases hv
  | cleanupUser key started later =>
    cases hv
    cases hq
  | request r =>
    obtain ⟨rfl, rfl, rfl⟩ := huser r (List.mem_filterMap.mpr ⟨_, he, rfl⟩)
    obtain rfl := userVisit_eq_some hv
    cases hq
    rfl

end

/-! ## Which requests get through -/

/-- What a number of tokens may be off by: far more than `float64` is. -/
def rounding : ℚ := 1 / 2 ^ 40

/-- The limiters of `main` are the token buckets that are documented. -/
structure Documented (lib : Library) : Prop where
  byIP : lib.TokenBucket (minute.tdiv unauthRateLimitPerMinute) unauthRateLimitPerMinute rounding
  byUser : lib.TokenBucket (minute.tdiv userRateLimitPerMinute) userRateLimitPerMinute rounding

theorem documented_exact : Documented Rate.exact :=
  ⟨Rate.exact_tokenBucket (by decide) (by decide) (by norm_num [rounding]),
    Rate.exact_tokenBucket (by decide) (by decide) (by norm_num [rounding])⟩

theorem interval_byIP : minute.tdiv unauthRateLimitPerMinute = 3 * Rate.second := by decide

theorem interval_byUser : minute.tdiv userRateLimitPerMinute = 600000000 := by decide

theorem fine_byIP : Library.Fine (minute.tdiv unauthRateLimitPerMinute) unauthRateLimitPerMinute rounding := by
  refine ⟨by decide, by decide, by norm_num [rounding], ?_⟩
  rw [interval_byIP]
  norm_num [rounding, unauthRateLimitPerMinute, Rate.second]

theorem fine_byUser : Library.Fine (minute.tdiv userRateLimitPerMinute) userRateLimitPerMinute rounding := by
  refine ⟨by decide, by decide, by norm_num [rounding], ?_⟩
  rw [interval_byUser]
  norm_num [rounding, userRateLimitPerMinute]

/--
No span of time holds more than 20 of the events and one for each `interval`, if
every span is `more` longer than it is.
-/
def Room (interval more : Duration) (ts : List Time) : Prop :=
  ∀ s e : Time, s ≤ e → (Rate.inSpan s e ts : ℚ) ≤ 20 + ((e - s + more : Int) : ℚ) / interval

section

variable {lib : Library} {ip userID tenantID : String} {es : List Traffic} {interval more : Duration}

theorem room_iff_conforms (hI : 0 < interval) (hmore : 0 ≤ more) {ts : List Time}
    (hts : ts.Pairwise (· ≤ ·)) :
    Room interval more ts ↔ Rate.Conforms interval (20 + (more : ℚ) / interval) ts := by
  have hpos : (0 : ℚ) < interval := by exact_mod_cast hI
  have hburst : (0 : ℚ) ≤ 20 + (more : ℚ) / interval := by
    have hshare : (0 : ℚ) ≤ (more : ℚ) / interval := div_nonneg (by exact_mod_cast hmore) hpos.le
    linarith
  rw [Rate.conforms_iff hI hburst hts]
  refine forall₃_congr fun s e _ => ?_
  rw [Int.cast_add, add_div, add_comm (((e - s : Int) : ℚ) / interval), ← add_assoc]

/-- The requests come in order. -/
theorem pairwise_timesOf (hes : (es.map Traffic.time).Pairwise (· ≤ ·)) : (timesOf es).Pairwise (· ≤ ·) := by
  rw [List.pairwise_map] at hes
  refine List.pairwise_map.mpr (List.pairwise_filterMap.mpr (hes.imp fun {a b} hab p hp q hq => ?_))
  cases a with
  | request r =>
    cases b with
    | request r' =>
      cases hp
      cases hq
      exact hab
    | _ => cases hq
  | _ => cases hp

/-- Where there is room for 20 requests and one every three seconds, the limiter by address grants them. -/
theorem grants_byIP (hlib : Documented lib) (hes : (es.map Traffic.time).Pairwise (· ≤ ·))
    (huser : OfUser ip userID tenantID es) (hroom : Room (3 * Rate.second + 1) 0 (timesOf es)) :
    (Limiters.new lib).byIP.Grants (es.filterMap Traffic.ipVisit?) := by
  have hconforms := (room_iff_conforms (by decide) le_rfl (pairwise_timesOf hes)).mp hroom
  refine grants_of_conforms hlib.byIP fine_byIP (pairwise_visits hes time_of_ipVisit) (key_of_ipVisit huser) ?_
  rw [asked_ipVisits, interval_byIP]
  simpa [unauthRateLimitPerMinute] using hconforms

/-- And so does the limiter by user. -/
theorem grants_byUser (hlib : Documented lib) (hes : (es.map Traffic.time).Pairwise (· ≤ ·))
    (huser : OfUser ip userID tenantID es) (hroom : Room (3 * Rate.second + 1) 0 (timesOf es)) :
    (Limiters.new lib).byUser.Grants (es.filterMap Traffic.userVisit?) := by
  have hsub : List.Sublist (((requestsOf es).filter PrivateRequest.served).map PrivateRequest.time)
      (timesOf es) := List.filter_sublist.map _
  have hts := (pairwise_timesOf hes).sublist hsub
  refine grants_of_conforms hlib.byUser fine_byUser (pairwise_visits hes time_of_userVisit)
    (key_of_userVisit huser) ?_
  rw [asked_userVisits, interval_byUser, Rate.conforms_iff (by decide) (by norm_num [userRateLimitPerMinute]) hts]
  intro s e hse
  have hcount : (Rate.inSpan s e (((requestsOf es).filter PrivateRequest.served).map PrivateRequest.time) : ℚ) ≤
      Rate.inSpan s e (timesOf es) := by exact_mod_cast hsub.countP_le
  have hspan : (0 : ℚ) ≤ ((e - s : Int) : ℚ) := by exact_mod_cast sub_nonneg.mpr hse
  have hrate : ((e - s : Int) : ℚ) / (3 * Rate.second + 1 : Int) ≤
      ((e - s : Int) : ℚ) / (600000000 + 1 : Int) := by
    refine div_le_div_of_nonneg_left hspan ?_ ?_ <;> norm_num [Rate.second]
  have hip := hroom s e hse
  rw [add_zero] at hip
  have hlimit : (userRateLimitPerMinute : ℚ) = 100 := by norm_num [userRateLimitPerMinute]
  linarith

/--
**Which requests of a user get through.** Whatever the cleanups do, none of the
requests of one user from one address is answered 429 if no span of time holds more
than 20 of them and one for every three seconds; and none is only if that is so, up
to a nanosecond in three seconds, which is more than rounding does.
-/
theorem unlimited_of_room (lib : Library) (hlib : Documented lib) (ip userID tenantID : String)
    (es : List Traffic) (hes : (es.map Traffic.time).Pairwise (· ≤ ·)) (huser : OfUser ip userID tenantID es) :
    (Room (3 * Rate.second + 1) 0 (timesOf es) → ∀ b ∈ (Limiters.new lib).run es, b = false) ∧
      ((∀ b ∈ (Limiters.new lib).run es, b = false) → Room (3 * Rate.second - 1) 2 (timesOf es)) := by
  refine ⟨fun hroom => run_false_iff.mpr ⟨grants_byIP hlib hes huser hroom, grants_byUser hlib hes huser hroom⟩,
    fun h => ?_⟩
  have hconforms := conforms_of_grants hlib.byIP fine_byIP (by decide) (pairwise_visits hes time_of_ipVisit)
    (key_of_ipVisit huser) (run_false_iff.mp h).1
  rw [asked_ipVisits, interval_byIP] at hconforms
  exact (room_iff_conforms (by decide) (by decide) (pairwise_timesOf hes)).mpr hconforms

end

namespace Sample

/-- A user sends a request every second, for half a minute. -/
def everySecond : List Traffic := (List.range 31).map fun i =>
  .request ⟨i, "203.0.113.7", "user", "tenant", i * Rate.second, true⟩

/--
A user sends 20 requests at once, every other of which gets as far as the second
limiter, and then one more every four seconds. Two minutes later both limiters
have been cleaned up, and there are 20 at once again.
-/
def bursts : List Traffic :=
  let request (i : Nat) (now : Time) : Traffic :=
    .request ⟨i, "203.0.113.7", "user", "tenant", now, i % 2 = 0⟩
  (List.range 20).map (fun i => request i 0) ++
    (List.range 6).map (fun i => request (20 + i) (4 * Rate.second * (i + 1))) ++
    [.cleanupIP "203.0.113.7" (150 * Rate.second) 5, .cleanupUser "tenant:user" (150 * Rate.second) 7] ++
    (List.range 20).map (fun i => request (26 + i) (151 * Rate.second))

end Sample

/-- **More than there is room for, though far fewer than 100 requests a minute**: one is answered 429. -/
theorem refused_of_everySecond : (Sample.everySecond.map Traffic.time).Pairwise (· ≤ ·) ∧
    OfUser "203.0.113.7" "user" "tenant" Sample.everySecond ∧
    (∀ s : Time, Rate.inSpan s (s + minute) (timesOf Sample.everySecond) ≤ 100) ∧
    ¬ ∀ b ∈ (Limiters.new Rate.exact).run Sample.everySecond, b = false := by
  refine ⟨by decide, by decide, fun s => List.countP_le_length.trans (by decide), fun h => ?_⟩
  exact absurd h (by decide +kernel)

/-- As many as there is room for, at once and one after the other. -/
theorem unlimited_of_bursts : Room (3 * Rate.second + 1) 0 (timesOf Sample.bursts) ∧
    ∀ b ∈ (Limiters.new Rate.exact).run Sample.bursts, b = false := by
  have hroom : Room (3 * Rate.second + 1) 0 (timesOf Sample.bursts) :=
    (room_iff_conforms (by decide) le_rfl (by decide +kernel)).mpr (by decide +kernel)
  exact ⟨hroom, (unlimited_of_room Rate.exact documented_exact "203.0.113.7" "user" "tenant" Sample.bursts
    (by decide +kernel) (by decide +kernel)).1 hroom⟩

end Middleware

end ExpenseSaas
