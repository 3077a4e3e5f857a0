import ExpenseSaas.ReadCommitted.Acknowledged
import ExpenseSaas.Runs.Schedules

/-!
# Refreshing a session

`RefreshToken` revokes the token it was given and only then looks up the
membership, the tenant and the user and makes the two new tokens. Each of these
is a statement of its own on a connection without a transaction, so a failure in
the middle does not undo the revocation.

`revoked_of_committed` says what an acknowledged revocation is worth in any run,
`consumed_of_failedLate` that every refresh which fails after it has used up the
session: the client holds a token that is revoked, and presenting it again ends
all sessions of the user.
-/

namespace ExpenseSaas

open ReadCommitted Sql

/-! ## Revocation -/

section

variable {C : World server → Action server → Prop} {d₀ : Database} {w : World server} {i : Nat}
  {s : Session server} {jti : UUID}

/-- The row is a revoked refresh token. -/
def Version.Revoked (v : Version) : Prop := ∃ x, v = .refreshToken x ∧ x.isRevoked = true

/-- Refresh tokens stay, and revoked ones stay revoked. -/
theorem keeps_revoked : kept.Keeps (.refreshToken jti) Version.Revoked where
  present v b h := by
    obtain ⟨v', hv', _⟩ := h v rfl
    exact Option.isSome_iff_exists.mpr ⟨v', hv'⟩
  marked v v' h hrev := by
    obtain ⟨x, rfl, hx⟩ := hrev
    obtain ⟨u, hu, hk⟩ := h _ rfl
    cases hu
    cases v' with
    | refreshToken y => exact ⟨y, rfl, hk.revoked hx⟩
    | _ => exact hk.elim

/-- `Revoke` finds its token when it is there, and leaves it revoked. -/
theorem marks_revoke : server.Marks (.revokeRefreshToken jti) (.refreshToken jti) Version.Revoked
    (fun snap => (refreshTokenRows.filter (fun x => x.jti = jti) snap).map refreshTokenRows.id)
    (refreshTokenRows.apply (fun x => x.jti = jti) fun _ _ _ x => .ok { x with isRevoked := true })
    (fun vs => exec (vs.filterMap refreshTokenRows.unwrap)) where
  sem := rfl
  aims d h := by
    obtain ⟨v, hv⟩ := Option.isSome_iff_exists.mp h
    have hid := id_of_server_get hv
    cases v with
    | refreshToken x =>
      cases hid
      have hx : x ∈ refreshTokenRows.rows d := (refreshTokenRows.mem_rows d x).mpr hv
      exact List.mem_map.mpr ⟨x, List.mem_filter.mpr ⟨hx, by simp⟩, rfl⟩
    | _ => cases hid
  hits snap cur o h := by
    obtain ⟨v, hv⟩ := Option.isSome_iff_exists.mp h
    have hid := id_of_server_get hv
    cases v with
    | refreshToken x =>
      cases hid
      have hfind : refreshTokenRows.find cur (.refreshToken x.jti) = some x :=
        refreshTokenRows.find_eq_some.mpr hv
      simp [Relation.apply, hfind]
    | _ => cases hid
  marks snap cur o v h := by
    obtain ⟨x, y, _, _, hset, rfl⟩ := refreshTokenRows.apply_eq_some h
    cases hset
    exact ⟨_, rfl, rfl⟩

/-- Whoever revokes a token has found it. -/
theorem present_of_revoking (h : Reachable C (.init d₀) w) (hs : w.sessions[i]? = some s)
    {k : Command.Resp (.sql (.revokeRefreshToken jti)) → Program Outcome}
    (hp : s.prog = .exec (.sql (.revokeRefreshToken jti)) k) :
    (server.get w.db (.refreshToken jti)).isSome := by
  have hfound : ∃ x, FoundToken s.trace jti x := by
    have hask := asked h hs hp
    cases hcall : s.call with
    | tenant actor e =>
      rw [hcall] at hask
      rcases hask with hreads | ⟨hmay, _⟩
      · cases hreads
      · cases hmay with
        | copy _ hq => cases hq
        | edit _ _ hq => cases hq
        | delete _ _ hq => cases hq
    | _ =>
      rw [hcall] at hask
      rcases hask with hreads | hmay
      · cases hreads
      · cases hmay <;> exact ⟨_, by assumption⟩
  obtain ⟨x, hx⟩ := hfound
  obtain ⟨d, hd, _, _, hread⟩ := h.read_committed hs rfl hx
  obtain ⟨hmem, hjti⟩ := refreshTokenRows.mem_of_first (Except.ok.inj hread)
  obtain rfl := of_decide_eq_true hjti
  have hget := (refreshTokenRows.mem_rows d x).mp hmem
  obtain ⟨v', hv', _⟩ := kept_respected.history h d hd (.refreshToken x.jti) _ hget
  exact Option.isSome_iff_exists.mpr ⟨v', hv'⟩

/-- **A revocation that was acknowledged is there to stay**, whatever else goes on. -/
theorem revoked_of_committed (h : Reachable C (.init d₀) w) (hs : w.sessions[i]? = some s)
    (hdone : Committed s.trace (.revokeRefreshToken jti)) :
    ∃ x, w.db.refreshTokens.find jti = some x ∧ x.isRevoked = true := by
  obtain ⟨v, hv, x, rfl, hx⟩ := h.marked_of_acknowledged marks_revoke keeps_revoked kept_respected
    (fun hw hs hp => present_of_revoking hw hs hp) hs hdone
  exact ⟨x, get_refreshToken.mp hv, hx⟩

end

/-! ## The steps after the revocation -/

/-- The contexts of the errors of the steps that follow the revocation, in their order. -/
def lateSteps : List String :=
  ["authService.RefreshToken: get membership", "authService.RefreshToken: get tenant",
    "authService.RefreshToken: get user", "authService.RefreshToken: generate access token",
    "authService.RefreshToken: generate refresh token",
    "authService.RefreshToken: verify new refresh token",
    "authService.RefreshToken: save new refresh token"]

/-- The error is that of a step after the revocation. -/
def GoError.isLate : GoError → Bool
  | .wrap context _ => lateSteps.contains context
  | _ => false

/-- The call has failed in a step after the revocation. -/
def FailedLate (a : Outcome) : Prop := ∃ err, a = .error err ∧ err.isLate = true

/-- The contract of a client that promises nothing. -/
abbrev freeContract : Contract Command Command.Resp := server.contract fun _ _ => True

/-- By the end, what `P` says of the history holds, if the call failed in one of these steps. -/
def LateOnly {α : Type} (P : Trace → Prop) (tr : Trace) (r : Except GoError α) : Prop :=
  ∀ err, r = .error err → err.isLate = true → P tr

section

variable {α β : Type} {P : Trace → Prop} {tr : Trace}

theorem lateOnly_of_early {err : GoError} (h : err.isLate = false) :
    LateOnly P tr (.error err : Except GoError α) := by
  intro err' herr hlate
  cases herr
  rw [h] at hlate
  cases hlate

/-- Once `P` holds for good, the rest does not matter. -/
theorem ends_of_done {x : Service α} (hP : ∀ {tr tr'}, tr <+: tr' → P tr → P tr') (h : P tr) :
    Svc.ends freeContract tr x (LateOnly P) := by
  refine Prog.wp_of_inv (I := P) (fun _ _ _ => trivial) (fun tr c r => ?_) h (fun _ _ h _ _ _ => h)
  exact hP (List.prefix_append _ _)

theorem ends_throw_early {err : GoError} (h : err.isLate = false) :
    Svc.ends freeContract tr (throw err : Service α) (LateOnly P) := lateOnly_of_early h

/-- What comes first fails early or goes on to the rest. -/
theorem ends_bind_early {x : Service β} {f : β → Service α}
    (h : Svc.ends freeContract tr x fun tr' r =>
      (∀ b, r = .ok b → Svc.ends freeContract tr' (f b) (LateOnly P)) ∧
        ∀ err, r = .error err → err.isLate = false) :
    Svc.ends freeContract tr (x >>= f) (LateOnly P) := by
  rw [Svc.ends_bind]
  refine Svc.ends_mono h (fun tr' r hr => ?_)
  cases r with
  | ok b => exact hr.1 b rfl
  | error err => exact lateOnly_of_early (hr.2 err rfl)

/-- A step before the revocation, or the revocation itself. -/
theorem ends_errorf_early {context : String} {x : Service β} {Q : Trace → β → Prop}
    (hc : lateSteps.contains context = false) (h : Svc.wp freeContract tr x Q) :
    Svc.ends freeContract tr (errorf context x) fun tr' r =>
      (∀ b, r = .ok b → Q tr' b) ∧ ∀ err, r = .error err → err.isLate = false := by
  unfold errorf
  rw [Svc.ends_mapError]
  refine Svc.ends_mono h (fun tr' r hr => ⟨fun b hb => ?_, fun err herr => ?_⟩)
  · cases r with
    | ok b' => exact hr b hb
    | error err => cases hb
  · cases r with
    | ok b' => cases herr
    | error err' =>
      cases herr
      exact hc

theorem ends_notFoundIs {e : DomainError} {context : String} {x : Service β} {Q : Trace → β → Prop}
    (hc : lateSteps.contains context = false) (h : Svc.wp freeContract tr x Q) :
    Svc.ends freeContract tr (notFoundIs e context x) fun tr' r =>
      (∀ b, r = .ok b → Q tr' b) ∧ ∀ err, r = .error err → err.isLate = false := by
  unfold notFoundIs
  rw [Svc.ends_bind, Svc.ends_attempt]
  refine Svc.ends_mono h (fun tr' r hr => ?_)
  dsimp only
  cases r with
  | ok b =>
    refine ⟨fun b' hb => ?_, fun err herr => ?_⟩
    · cases hb
      exact hr b rfl
    · cases herr
  | error err =>
    dsimp only
    split
    · refine ⟨fun b' hb => ?_, fun err herr => ?_⟩
      · cases hb
      · cases herr
        rfl
    · refine ⟨fun b' hb => ?_, fun err herr => ?_⟩
      · cases hb
      · cases herr
        exact hc

theorem ends_withConn {context : String} {body : Service α}
    (hP : ∀ {tr tr'}, tr <+: tr' → P tr → P tr') (hc : lateSteps.contains context = false)
    (h : ∀ tr', Svc.ends freeContract tr' body (LateOnly P)) :
    Svc.ends freeContract tr (withConn context body) (LateOnly P) := by
  unfold withConn ext call
  rw [Svc.ends_bind, Svc.ends_call]
  refine ⟨trivial, fun conn _ => ?_⟩
  refine ends_bind_early (Svc.ends_mono (ends_errorf_early hc (Q := fun _ _ => True) ?_)
    fun tr' r hr => ⟨fun _ _ => ?_, hr.2⟩)
  · exact fun _ _ => trivial
  · rw [Svc.ends_bind, Svc.ends_attempt]
    refine Svc.ends_mono (h tr') (fun tr'' r' hr' => ?_)
    dsimp only
    rw [Svc.ends_bind, Svc.ends_call]
    refine ⟨trivial, fun _ _ => ?_⟩
    intro err herr hlate
    exact hP (List.prefix_append _ _) (hr' err herr hlate)

/-- A statement that went through on a bare connection has been committed. -/
theorem wp_committed {q : Stmt} :
    Svc.wp freeContract tr (autocommit q) fun tr' _ => Committed tr' q := by
  unfold autocommit call orSqlError
  simp only [Svc.wp_bind, Svc.wp_call, Svc.wp_ofExcept]
  refine ⟨trivial, fun b _ u hu => ⟨trivial, fun r _ => ?_⟩⟩
  cases r with
  | error e =>
    simp only [Svc.wp_bind, Svc.wp_call, Svc.wp_throw]
    exact ⟨trivial, fun _ _ => trivial⟩
  | ok r =>
    simp only [Svc.wp_bind, Svc.wp_call, Svc.wp_ofExcept, Svc.wp_pure]
    refine ⟨trivial, fun c _ v hv => ?_⟩
    cases c with
    | error e => cases hv
    | ok c => exact ⟨_, r, c, List.prefix_rfl, current_autocommit⟩

/-- What is wrong with the token itself is found out before anything is revoked. -/
theorem early_verifyRefreshToken {token : RefreshTokenText} :
    Svc.ends freeContract tr (verifyRefreshToken token) fun _ r =>
      (∀ c, r = .ok c → token = .signed c) ∧ ∀ err, r = .error err → err.isLate = false := by
  have hrefused : ∀ e : DomainError, (∀ c : RefreshTokenClaims,
      (.error (.sentinel e) : Except GoError RefreshTokenClaims) = .ok c → token = .signed c) ∧
      ∀ err, (.error (.sentinel e) : Except GoError RefreshTokenClaims) = .error err →
        err.isLate = false := by
    refine fun e => ⟨fun c hc => ?_, fun err herr => ?_⟩
    · cases hc
    · cases herr
      rfl
  unfold verifyRefreshToken timeNow ext call
  rw [Svc.ends_bind, Svc.ends_call]
  refine ⟨trivial, fun now _ => ?_⟩
  cases token with
  | foreign text => exact hrefused _
  | signed c =>
    dsimp only
    split
    · exact hrefused _
    · split
      · exact hrefused _
      · refine ⟨fun c' hc => ?_, fun err herr => ?_⟩
        · cases hc
          rfl
        · cases herr

theorem ends_refreshConn {c : RefreshTokenClaims} :
    Svc.ends freeContract tr (AuthService.refreshConn c)
      (LateOnly fun tr' => Committed tr' (.revokeRefreshToken c.jti)) := by
  unfold AuthService.refreshConn
  refine ends_bind_early (Svc.ends_mono (ends_notFoundIs (by decide) (Q := fun _ _ => True)
    (Prog.wp_of_free (fun _ _ => trivial) fun _ _ _ _ => trivial))
    fun tr₂ r hr => ⟨fun storedToken _ => ?_, hr.2⟩)
  split
  · rw [Svc.ends_bind, Svc.ends_attempt]
    exact Prog.wp_of_free (fun _ _ => trivial) fun tr₃ r => ends_throw_early rfl
  · unfold AuthService.rotate RefreshTokenRepo.revoke
    refine ends_bind_early (Svc.ends_mono (ends_errorf_early (by decide)
      (Svc.wp_mapError.mpr wp_committed)) fun tr₃ r hr => ⟨fun u hu => ?_, hr.2⟩)
    exact ends_of_done (fun hp h => h.mono hp) (hr.1 u hu)

/-- A refresh that fails late has revoked the token it was given. -/
theorem ends_refreshToken {token : RefreshTokenText} :
    Svc.ends freeContract tr (AuthService.refreshToken token)
      (LateOnly fun tr' => Succeeded tr' (.refreshToken token)) := by
  unfold AuthService.refreshToken
  refine ends_bind_early (Svc.ends_mono early_verifyRefreshToken
    fun tr₁ r hr => ⟨fun c hc => ?_, hr.2⟩)
  obtain rfl := hr.1 c hc
  refine Svc.ends_mono (ends_withConn (fun hp h => h.mono hp) (by decide)
    fun tr₂ => ends_refreshConn) fun tr₃ r h err herr hlate => ?_
  exact ⟨c, rfl, h err herr hlate⟩

/-- And so has the call. -/
theorem call_failedLate (call : Call) :
    Prog.wp freeContract [] (server.code call) fun tr a => ∀ token, call = .refreshToken token →
      FailedLate a → Succeeded tr (.refreshToken token) := by
  cases call with
  | refreshToken token =>
    show Svc.ends freeContract [] (AuthService.refreshToken token >>= fun r => pure (Payload.auth r)) _
    rw [Svc.ends_bind]
    refine Svc.ends_mono ends_refreshToken (fun tr r h => ?_)
    cases r with
    | ok a =>
      rintro _ _ ⟨err, herr, _⟩
      cases herr
    | error err =>
      rintro token' htoken ⟨err', herr, hlate⟩
      cases htoken
      cases herr
      exact h err rfl hlate
  | _ =>
    refine Prog.wp_of_free (fun _ _ => trivial) fun tr a token h => ?_
    cases h

end

/-! ## A failed refresh consumes the session -/

/--
What a failed refresh should leave of the database it was made in: the token is
not revoked, and there is no token that was not there before.
-/
structure Unconsumed (d d' : Database) (jti : UUID) : Prop where
  live : ∃ x, d'.refreshTokens.find jti = some x ∧ x.isRevoked = false
  noNew : ∀ k, d.refreshTokens.find k = none → d'.refreshTokens.find k = none

section

variable {C : World server → Action server → Prop} {d₀ : Database} {w : World server} {i : Nat}
  {s : Session server} {token : RefreshTokenText} {a : Outcome}

/-- By the time a refresh has failed late, its token is revoked. -/
theorem revoked_of_failedLate (h : Reachable C (.init d₀) w) (hs : w.sessions[i]? = some s)
    (hcall : s.call = .refreshToken token) (hp : s.prog = .ret a) (ha : FailedLate a) :
    ∃ c x, token = .signed c ∧ w.db.refreshTokens.find c.jti = some x ∧ x.isRevoked = true := by
  have hdone := h.returned (fun _ c _ => call_failedLate c) hs hp token hcall ha
  obtain ⟨c, hc, hrevoked⟩ := hdone
  obtain ⟨x, hx, hrev⟩ := revoked_of_committed h hs hrevoked
  exact ⟨c, x, hc, hx, hrev⟩

/--
**No refresh that fails after its checks leaves the session as it was.** In every
run, from every database, a call that has returned the error of one of these
steps has revoked its token by then, and so it stays.
-/
theorem consumed_of_failedLate (h : Reachable C (.init d₀) w) (hs : w.sessions[i]? = some s)
    (hcall : s.call = .refreshToken token) (hp : s.prog = .ret a) (ha : FailedLate a) :
    ∃ c, token = .signed c ∧ ∀ d, ¬ Unconsumed d w.db c.jti := by
  obtain ⟨c, x, hc, hx, hrev⟩ := revoked_of_failedLate h hs hcall hp ha
  refine ⟨c, hc, fun d hd => ?_⟩
  obtain ⟨y, hy, hlive⟩ := hd.live
  cases hx.symm.trans hy
  rw [hrev] at hlive
  cases hlive

end

/-! ## Two failed refreshes -/

namespace Sample

/-- The owner refreshes the session, but the new access token cannot be signed. -/
def refreshUnsigned : List (Action server) :=
  [.start (.refreshToken (.signed claims))] ++ turns 0 21 100 ++
    [.step 0 { Oracle.at 200 with failure := some "the key cannot be read" }] ++ turns 0 1 300

/-- The owner refreshes the session, the membership lookup is lost, and the owner tries again. -/
def refreshLost : List (Action server) :=
  [.start (.refreshToken (.signed claims))] ++ turns 0 11 100 ++ [.fail 0 .connectionFailure] ++
    turns 0 2 200 ++ [.start (.refreshToken (.signed claims))] ++ turns 1 10 300

end Sample

/-- How a refresh with this token has ended. -/
def refreshEnded (token : RefreshTokenText) (ok : Outcome → Bool) (s : Session server) : Bool :=
  match s.call, s.prog with
  | .refreshToken t, .ret a => t = token && ok a
  | _, _ => false

theorem refreshEnded_eq_true {ok : Outcome → Bool} {s : Session server} {token : RefreshTokenText}
    (h : refreshEnded token ok s = true) :
    ∃ a, s.call = .refreshToken token ∧ s.prog = .ret a ∧ ok a = true := by
  unfold refreshEnded at h
  split at h
  · rename_i t a hcall hp
    obtain ⟨htoken, hok⟩ := Bool.and_eq_true_iff.mp h
    rw [of_decide_eq_true htoken] at hcall
    exact ⟨a, hcall, hp, hok⟩
  · cases h

/-- The answer is the error of a step after the revocation. -/
def Sample.failedLate : Outcome → Bool
  | .error err => err.isLate
  | .ok _ => false

/-- The answer is that the token was revoked. -/
def Sample.tokenRevoked : Outcome → Bool
  | .error err => err = .sentinel .tokenRevoked
  | .ok _ => false

/-- Here the token could not be signed. -/
theorem consumed_of_refreshUnsigned : ∃ (w : World server) (s : Session server) (a : Outcome),
    Reachable (fun _ _ => True) (.init Sample.database) w ∧ w.sessions[0]? = some s ∧
      s.call = .refreshToken (.signed Sample.claims) ∧ s.prog = .ret a ∧ FailedLate a ∧
      ∃ c, RefreshTokenText.signed Sample.claims = .signed c ∧ ∀ d, ¬ Unconsumed d w.db c.jti := by
  have hrun : ((World.init Sample.database : World server).run (fun _ _ => true)
      Sample.refreshUnsigned).any (fun w =>
        w.sessions[0]?.any (refreshEnded (.signed Sample.claims) Sample.failedLate)) = true := by
    decide +kernel
  obtain ⟨w, hw, hret⟩ := exists_of_run (C := fun _ _ => True) (fun _ _ _ => trivial) hrun
  obtain ⟨s, hs, hended⟩ := (Option.any_eq_true _ _).mp hret
  obtain ⟨a, hcall, hp, hok⟩ := refreshEnded_eq_true hended
  have hlate : FailedLate a := by
    cases a with
    | ok p => cases hok
    | error err => exact ⟨err, rfl, hok⟩
  exact ⟨w, s, a, hw, hs, hcall, hp, hlate, consumed_of_failedLate hw hs hcall hp hlate⟩

/--
**The refresh has failed, the token is revoked, and the retry is refused.** The
token was live before, and it is nobody else who uses it.
-/
theorem not_unconsumed_of_refreshLost :
    Sample.database.refreshTokens.find Sample.claims.jti = some Sample.token ∧
    Sample.token.isRevoked = false ∧
    ∃ (w : World server) (s t : Session server) (a : Outcome),
      Reachable (fun _ _ => True) (.init Sample.database) w ∧ w.sessions[0]? = some s ∧
      s.call = .refreshToken (.signed Sample.claims) ∧ s.prog = .ret a ∧ FailedLate a ∧
      ¬ Unconsumed Sample.database w.db Sample.claims.jti ∧ w.sessions[1]? = some t ∧
      t.call = .refreshToken (.signed Sample.claims) ∧
      t.prog = .ret (.error (.sentinel .tokenRevoked)) := by
  refine ⟨by decide, rfl, ?_⟩
  have hrun : ((World.init Sample.database : World server).run (fun _ _ => true)
      Sample.refreshLost).any (fun w =>
        w.sessions[0]?.any (refreshEnded (.signed Sample.claims) Sample.failedLate) &&
        w.sessions[1]?.any (refreshEnded (.signed Sample.claims) Sample.tokenRevoked) &&
        (w.db.refreshTokens.find Sample.claims.jti).all fun x => x.isRevoked) = true := by
    decide +kernel
  obtain ⟨w, hw, hret⟩ := exists_of_run (C := fun _ _ => True) (fun _ _ _ => trivial) hrun
  simp only [Bool.and_eq_true, Option.any_eq_true] at hret
  obtain ⟨⟨⟨s, hs, hfailed⟩, t, ht, hretry⟩, hrev⟩ := hret
  obtain ⟨a, hcall, hp, hok⟩ := refreshEnded_eq_true hfailed
  obtain ⟨b, hcall', hp', hok'⟩ := refreshEnded_eq_true hretry
  refine ⟨w, s, t, a, hw, hs, hcall, hp, ?_, ?_, ht, hcall', ?_⟩
  · cases a with
    | ok p => cases hok
    | error err => exact ⟨err, rfl, hok⟩
  · rintro ⟨⟨x, hx, hlive⟩, _⟩
    rw [hx] at hrev
    exact Bool.false_ne_true (hlive.symm.trans hrev)
  · cases b with
    | ok p => cases hok'
    | error err => exact of_decide_eq_true hok' ▸ hp'

end ExpenseSaas
