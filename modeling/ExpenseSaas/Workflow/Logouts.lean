import ExpenseSaas.Contract.Signup
import ExpenseSaas.Workflow.Sessions

/-!
# Logging out

A logout that finds its token stored and meets with no failure leaves it revoked,
as it has found it or by revoking it itself (`revoked_of_handled`). That alone does
not end the session: whoever has revoked the token before may have stored another
one. `Unused` says that no refresh has come first. It is true forever once the token
is revoked (`unused_step`), and then nothing descends from the token
(`not_yields_of_unused`), so that a chain which leads to it ends there
(`revoked_of_unused`).
-/

namespace ExpenseSaas

open ReadCommitted Sql

/--
The server has handled a logout with this token: it has found the token among
those stored, and nothing has failed.
-/
structure Handled (s : Session server) (c : RefreshTokenClaims) : Prop where
  call_eq : s.call = .logout (.signed c)
  returned : ∃ a, s.prog = .ret a
  found : ∃ x, FoundToken s.trace c.jti x
  sound : ∀ ev ∈ s.trace, ¬ Fault ev

/-- No refresh has come to the token: none is using it up, and none has done so. -/
def Unused (w : World server) (jti : UUID) : Prop :=
  ∀ s ∈ w.sessions, s.call.isRefresh = true → ¬ Consuming s jti

/-! ## What a logout leaves behind -/

/-- The token has not been found. -/
def Unfound (jti : UUID) (tr : Trace) : Prop :=
  ∀ x, (⟨.sql (.getRefreshTokenByJTI jti), .ok (some x)⟩ : Event Command Command.Resp) ∉ tr

/-- How a logout may end. -/
inductive LogoutEnds (jti : UUID) (tr : Trace) : Prop where
  | unfound : Unfound jti tr → LogoutEnds jti tr
  | failed {ev : Event Command Command.Resp} : ev ∈ tr → Fault ev → LogoutEnds jti tr
  | revoked {x : RefreshToken} : FoundToken tr jti x → x.isRevoked = true → LogoutEnds jti tr
  | revoking : Committed tr (.revokeRefreshToken jti) → LogoutEnds jti tr

section

variable {tr : Trace} {jti : UUID}

theorem Unfound.append (h : Unfound jti tr) {ev : Event Command Command.Resp}
    (hev : ∀ x, ev ≠ ⟨.sql (.getRefreshTokenByJTI jti), .ok (some x)⟩) : Unfound jti (tr ++ [ev]) := by
  intro x hx
  rcases List.mem_append.mp hx with hx | hx
  · exact h x hx
  · exact hev x (List.mem_singleton.mp hx).symm

/-- The connection goes back. -/
theorem LogoutEnds.release (h : LogoutEnds jti tr) {r : Ext.Result .release} :
    LogoutEnds jti (tr ++ [⟨.ext .release, r⟩]) := by
  have hpre : tr <+: tr ++ [⟨.ext .release, r⟩] := List.prefix_append _ _
  cases h with
  | unfound h => exact .unfound (h.append fun x hx => by cases hx)
  | failed hev hfault => exact .failed (hpre.subset hev) hfault
  | revoked hx hrev => exact .revoked (seen_mono hx hpre) hrev
  | revoking hdone => exact .revoking (hdone.mono hpre)

/-- A statement on a bare connection has committed, or something has failed. -/
theorem ends_autocommit {q : Stmt} (hq : ∀ email name h, q ≠ .createUser email name h)
    {Q : Trace → Except GoError q.Result → Prop}
    (hfailed : ∀ tr' e, (∃ ev ∈ tr', Fault ev) → Q tr' (.error e))
    (hok : ∀ b r c, Q (tr ++ [⟨.begin, .ok b⟩] ++ [⟨.sql q, .ok r⟩] ++ [⟨.commit, .ok c⟩]) (.ok r)) :
    Svc.ends freeContract tr (autocommit q) Q := by
  unfold autocommit call orSqlError
  simp only [Svc.ends_bind, Svc.ends_call]
  refine ⟨trivial, fun b _ => ?_⟩
  cases b with
  | error e => exact hfailed _ _ ⟨_, List.mem_concat_self, .begin⟩
  | ok b =>
    refine ⟨trivial, fun r _ => ?_⟩
    cases r with
    | error e =>
      simp only [Svc.ends_bind, Svc.ends_call]
      refine ⟨trivial, fun c _ => hfailed _ _ ⟨⟨.sql q, .error e⟩, by simp, .sql fun _ => hq⟩⟩
    | ok r =>
      simp only [Svc.ends_bind, Svc.ends_call]
      refine ⟨trivial, fun c _ => ?_⟩
      cases c with
      | error e => exact hfailed _ _ ⟨_, List.mem_concat_self, .commit⟩
      | ok c => exact hok b r c

/-- A lookup, whatever its error is turned into. -/
theorem ends_lookup {α : Type} {e : DomainError} {context : String} {x : Service α}
    {Q : Trace → Except GoError α → Prop}
    (h : Svc.ends freeContract tr x fun tr' r =>
      (∀ a, r = .ok a → Q tr' (.ok a)) ∧ ((∃ err, r = .error err) → ∀ err, Q tr' (.error err))) :
    Svc.ends freeContract tr (notFoundIs e context x) Q := by
  unfold notFoundIs
  rw [Svc.ends_bind, Svc.ends_attempt]
  refine Svc.ends_mono h fun tr' r hr => ?_
  cases r with
  | ok a => exact hr.1 a rfl
  | error err =>
    dsimp only
    split
    · exact hr.2 ⟨err, rfl⟩ _
    · exact hr.2 ⟨err, rfl⟩ _

/-- The row of a token is found and seen, or is not there, or something has failed. -/
theorem ends_getByJTI (h : Unfound jti tr) : Svc.ends freeContract tr (RefreshTokenRepo.getByJTI .conn jti)
    fun tr' r => (∀ x, r = .ok x → FoundToken tr' jti x) ∧
      ((∃ err, r = .error err) → LogoutEnds jti tr') := by
  unfold RefreshTokenRepo.getByJTI
  rw [Svc.ends_bind, ends_errorf]
  refine ends_autocommit (fun _ _ _ hq => by cases hq) (fun tr' e hfault => ?_) fun b row c => ?_
  · obtain ⟨ev, hev, hfault⟩ := hfault
    dsimp only [Except.mapError]
    exact ⟨fun x hx => (by cases hx), fun _ => .failed hev hfault⟩
  · dsimp only [Except.mapError]
    cases row with
    | none =>
      show Svc.ends freeContract _ (fail _ : Service RefreshToken) _
      rw [ends_fail]
      refine ⟨fun x hx => (by cases hx), fun _ => .unfound ?_⟩
      refine ((h.append fun x hx => ?_).append fun x hx => ?_).append fun x hx => ?_
      · cases hx
      · cases hx
      · cases hx
    | some x =>
      show Svc.ends freeContract _ (pure x : Service RefreshToken) _
      rw [Svc.ends_pure]
      refine ⟨fun y hy => ?_, fun herr => ?_⟩
      · cases hy
        exact Engine.Seen.append (Engine.seen_append.mpr (Or.inr ⟨rfl, Engine.clean_append⟩)) _
      · obtain ⟨err, herr⟩ := herr
        cases herr

theorem ends_logoutConn {c : RefreshTokenClaims} (h : Unfound c.jti tr) :
    Svc.ends freeContract tr (AuthService.logoutConn c) fun tr' _ => LogoutEnds c.jti tr' := by
  unfold AuthService.logoutConn RefreshTokenRepo.revoke
  rw [Svc.ends_bind]
  refine ends_lookup (Svc.ends_mono (ends_getByJTI h) fun tr₁ r hr => ⟨fun x hx => ?_, fun herr _ => hr.2 herr⟩)
  have hfound := hr.1 x hx
  dsimp only
  split
  · rename_i hrev
    exact .revoked hfound hrev
  · rw [ends_errorf, ends_errorf]
    refine ends_autocommit (fun _ _ _ hq => by cases hq) (fun tr₂ e hfault => ?_) fun b u c' => ?_
    · obtain ⟨ev, hev, hfault⟩ := hfault
      exact .failed hev hfault
    · exact .revoking ⟨_, u, c', List.prefix_rfl, current_autocommit⟩

/-- A connection is taken for what the body does, and goes back. -/
theorem ends_conn {α : Type} {context : String} {body : Service α} {Q : Trace → Except GoError α → Prop}
    (hrefused : ∀ conn e, Q (tr ++ [⟨.ext .acquire, conn⟩]) (.error e))
    (hbody : ∀ conn, Svc.ends freeContract (tr ++ [⟨.ext .acquire, conn⟩]) body fun tr' r =>
      ∀ x, Q (tr' ++ [⟨.ext .release, x⟩]) r) : Svc.ends freeContract tr (withConn context body) Q := by
  unfold withConn ext call
  simp only [Svc.ends_bind, Svc.ends_call, Svc.ends_attempt, ends_errorf, ends_orFail]
  refine ⟨trivial, fun conn _ => ?_⟩
  cases conn with
  | error e => exact hrefused _ _
  | ok u => exact Svc.ends_mono (hbody _) fun tr' r hr => ⟨trivial, fun x _ => hr x⟩

theorem ends_logout {c : RefreshTokenClaims} :
    Svc.ends freeContract [] (AuthService.logout (.signed c)) fun tr _ => LogoutEnds c.jti tr := by
  have hnone : Unfound c.jti [] := fun x hx => by cases hx
  unfold AuthService.logout verifyRefreshToken timeNow ext call
  rw [Svc.ends_bind, Svc.ends_bind, Svc.ends_call]
  refine ⟨trivial, fun now _ => ?_⟩
  have hclock : Unfound c.jti ([] ++ [⟨.ext .timeNow, now⟩]) := hnone.append fun x hx => by cases hx
  dsimp only
  split
  · exact .unfound hclock
  · split
    · exact .unfound hclock
    · refine ends_conn (fun conn e => .unfound (hclock.append fun x hx => by cases hx)) fun conn => ?_
      have hconn : Unfound c.jti ([] ++ [⟨.ext .timeNow, now⟩] ++ [⟨.ext .acquire, conn⟩]) :=
        hclock.append fun x hx => by cases hx
      exact Svc.ends_mono (ends_logoutConn hconn) fun tr' r hends _ => hends.release

/-- **How a logout ends.** -/
theorem call_logoutEnds (call : Call) : Prog.wp freeContract [] (server.code call) fun tr _ =>
    ∀ c, call = .logout (.signed c) → LogoutEnds c.jti tr := by
  cases call with
  | logout token =>
    cases token with
    | foreign text =>
      refine Prog.wp_of_free (fun _ _ => trivial) fun tr a c h => ?_
      cases h
    | signed c =>
      show Svc.ends freeContract [] (AuthService.logout (.signed c) >>= fun _ => pure Payload.nothing) _
      rw [Svc.ends_bind]
      refine Svc.ends_mono ends_logout fun tr r hends => ?_
      have hall : ∀ c', Call.logout (.signed c) = .logout (.signed c') → LogoutEnds c'.jti tr := by
        intro c' hc
        cases hc
        exact hends
      cases r with
      | ok u => exact hall
      | error e => exact hall
  | _ =>
    refine Prog.wp_of_free (fun _ _ => trivial) fun tr a c h => ?_
    cases h

end

/-! ## The end of a session -/

section

variable {C : World server → Action server → Prop} {d₀ : Database} {w w' : World server} {i : Nat}
  {s : Session server} {c : RefreshTokenClaims} {jti a b : UUID}

/-- A token that was found revoked is revoked. -/
theorem revoked_of_found (h : Reachable C (.init d₀) w) (hs : w.sessions[i]? = some s) {x : RefreshToken}
    (hx : FoundToken s.trace jti x) (hrev : x.isRevoked = true) :
    ∃ y, w.db.refreshTokens.find jti = some y ∧ y.isRevoked = true := by
  obtain ⟨d, hd, _, _, hread⟩ := h.read_committed hs rfl hx
  obtain ⟨hmem, hjti⟩ := refreshTokenRows.mem_of_first (Except.ok.inj hread)
  obtain rfl := of_decide_eq_true hjti
  have hget := (refreshTokenRows.mem_rows d x).mp hmem
  obtain ⟨v, hv, y, rfl, hy⟩ := keeps_revoked.le (kept_respected.history h d hd (.refreshToken x.jti))
    ⟨_, hget, x, rfl, hrev⟩
  exact ⟨y, get_refreshToken.mp hv, hy⟩

/-- **The token of a logout that was handled is revoked.** -/
theorem revoked_of_handled (h : Reachable C (.init d₀) w) (hs : w.sessions[i]? = some s)
    (hhandled : Handled s c) : ∃ x, w.db.refreshTokens.find c.jti = some x ∧ x.isRevoked = true := by
  obtain ⟨a, hp⟩ := hhandled.returned
  obtain ⟨x, hx⟩ := hhandled.found
  cases h.returned (fun _ c _ => call_logoutEnds c) hs hp c hhandled.call_eq with
  | unfound hnone => exact absurd hx.mem (hnone x)
  | failed hev hfault => exact absurd hfault (hhandled.sound _ hev)
  | revoked hy hrev => exact revoked_of_found h hs hy hrev
  | revoking hdone => exact revoked_of_committed h hs hdone

/-- A session that moves or breaks does not come to a revoked token. -/
theorem unused_step (h : Reachable C (.init d₀) w)
    (hrev : ∃ x, w.db.refreshTokens.find jti = some x ∧ x.isRevoked = true) (hunused : Unused w jti)
    {a : Action server} (hstep : w.step a = some w') : Unused w' jti := by
  have hset : ∀ {i : Nat} {s s' : Session server} {w' : World server}, w.sessions[i]? = some s →
      w'.sessions = w.sessions.set i s' → s'.call = s.call → (Consuming s' jti → Consuming s jti) →
      Unused w' jti := by
    intro i s s' w' hs hsessions hcall hbefore t ht hrefresh hct
    rw [hsessions] at ht
    rcases List.mem_or_eq_of_mem_set ht with ht | rfl
    · exact hunused t ht hrefresh hct
    · exact hunused s (List.mem_of_getElem? hs) (hcall ▸ hrefresh) (hbefore hct)
  cases World.step_cases hstep with
  | start call =>
    intro t ht hrefresh hct
    rcases List.mem_append.mp ht with ht | ht
    · exact hunused t ht hrefresh hct
    · rw [List.mem_singleton.mp ht] at hct
      exact not_consuming_new hct
  | @move i o s s' d' hs hm =>
    refine hset hs rfl hm.told.call_eq fun hct => ?_
    rcases hct.before h hs hm with hcs | ⟨_, x, hx, hlive⟩
    · exact hcs
    · -- It looks the token up now, which is revoked.
      obtain ⟨y, hy, hrev⟩ := hrev
      cases hx.symm.trans hy
      rw [hlive] at hrev
      cases hrev
  | broke _ hs hb =>
    exact hset hs rfl (hb.told (d := w.db)).call_eq fun hct => hct.unbroken hb

/-- Without races no refresh has come to a token that a logout has revoked. -/
theorem unused_of_succeeded (hC : ∀ w a, C w a → Unraced w a) (h : Reachable C (.init d₀) w)
    (hs : w.sessions[i]? = some s) (hcall : s.call = .logout (.signed c)) {p : Payload}
    (hp : s.prog = .ret (.ok p)) : Unused w c.jti := by
  intro t ht hrefresh hct
  obtain ⟨j, hj⟩ := List.mem_iff_getElem?.mp ht
  have hij : i ≠ j := by
    rintro rfl
    cases hs.symm.trans hj
    rw [hcall] at hrefresh
    cases hrefresh
  exact oneConsumer hC h i j s t c.jti hs hj hij (Or.inr hrefresh)
    (consuming_of_succeeded h hs hp (Or.inr hcall)).1 hct

/-- A token that no refresh has come to has yielded nothing. -/
theorem not_yields_of_unused (h : Reachable C (.init d₀) w) (hunused : Unused w a) : ¬ Yields w a b := by
  rintro ⟨i, s, c, hs, hcall, rfl, hb⟩
  refine hunused s (List.mem_of_getElem? hs) ?_ (consuming_of_stored h hs hcall hb)
  rw [hcall]
  rfl

/--
**A session ends with a revoked token that no refresh has come to**: every token
that descends from where the session began is revoked.
-/
theorem revoked_of_unused (hC : ∀ w a, C w a → Unraced w a) (h : Reachable C (.init d₀) w)
    (hlast : ∃ x, w.db.refreshTokens.find jti = some x ∧ x.isRevoked = true) (hunused : Unused w jti)
    (ha : Descends w a jti) (hb : Descends w a b) :
    ∃ x, w.db.refreshTokens.find b = some x ∧ x.isRevoked = true := by
  -- The session is a chain, on which `b` comes before the last token or after it.
  rcases Relation.ReflTransGen.total_of_right_unique (rightUnique_yields hC h) ha hb with hcb | hbc
  · rcases hcb.cases_head with rfl | ⟨b', hyields, _⟩
    · exact hlast
    · exact absurd hyields (not_yields_of_unused h hunused)
  · rcases hbc.cases_head with rfl | ⟨b', hyields, _⟩
    · exact hlast
    · exact revoked_of_yields h hyields

end

end ExpenseSaas
