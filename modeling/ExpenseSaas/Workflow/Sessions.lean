import ExpenseSaas.Workflow.Rotation
import Mathlib.Logic.Relation

/-!
# Who uses up a refresh token

`RefreshToken` and `Logout` look a token up, find it live, and revoke it in a
later statement that does not look again. Two calls with one token can both find
it live, and then both go on. `Unraced` is the condition on a step that this
does not happen: no call looks a token up while another call has found it live
and is still about to revoke it, except that two logouts may do so.

Under that condition one call uses a token up (`not_both_consuming`). Since a
refresh stores one new token and only after it has revoked the old one
(`stored_once`, `committed_of_stored`), what descends from a token by refreshes
is a chain (`rightUnique_yields`). Everything on it but its last token has been
revoked on the way (`revoked_of_yields`).
-/

namespace ExpenseSaas

open ReadCommitted Sql

/-! ## Presenting a token -/

/-- The call is a refresh. -/
def Call.isRefresh : Call → Bool
  | .refreshToken _ => true
  | _ => false

/-- The call presents the refresh token of this name. -/
def Call.Presents (jti : UUID) : Call → Prop
  | .refreshToken token => ∃ c, token = .signed c ∧ c.jti = jti
  | .logout token => ∃ c, token = .signed c ∧ c.jti = jti
  | _ => False

/-- The token was looked up and found not revoked. -/
def FoundLive (tr : Trace) (jti : UUID) : Prop := ∃ x, FoundToken tr jti x ∧ x.isRevoked = false

/-- The session has found the token live and is on its way to revoke it. -/
structure InUse (s : Session server) (jti : UUID) : Prop where
  found : FoundLive s.trace jti
  running : ∀ a, s.prog ≠ .ret a
  unrevoked : ¬ Committed s.trace (.revokeRefreshToken jti)

/--
No session looks a token up that another one has in use, unless neither of the
two is a refresh.
-/
def Unraced (w : World server) (a : Action server) : Prop :=
  ∀ (i j : Nat) (o : Oracle) (s t : Session server) (jti : UUID)
    (k : Command.Resp (.sql (.getRefreshTokenByJTI jti)) → Program Outcome),
    a = .step i o → w.sessions[i]? = some s → s.prog = .exec (.sql (.getRefreshTokenByJTI jti)) k →
    i ≠ j → w.sessions[j]? = some t → InUse t jti →
    s.call.isRefresh = false ∧ t.call.isRefresh = false

/-- The session has looked its token up. -/
def lookedUp (s : Session server) : Bool :=
  s.trace.any fun ev => match ev.1 with
    | .sql (.getRefreshTokenByJTI _) => true
    | _ => false

/-- The call of the session has returned. -/
def hasReturned (s : Session server) : Bool :=
  match s.prog with
  | .ret _ => true
  | _ => false

/-- The session is about to look its token up. -/
def looksUp (s : Session server) : Bool :=
  match s.prog with
  | .exec (.sql (.getRefreshTokenByJTI _)) _ => true
  | _ => false

/-- No session looks its token up while another one is between its lookup and its end. -/
def inTurn (w : World server) : Action server → Bool
  | .step i _ => !w.sessions[i]?.any looksUp || (List.range w.sessions.length).all fun j =>
      j = i || w.sessions[j]?.all fun t => !lookedUp t || hasReturned t
  | _ => true

theorem InUse.lookedUp {s : Session server} {jti : UUID} (h : InUse s jti) : lookedUp s = true := by
  obtain ⟨x, hx, _⟩ := h.found
  exact List.any_eq_true.mpr ⟨_, hx.mem, rfl⟩

theorem InUse.not_returned {s : Session server} {jti : UUID} (h : InUse s jti) : hasReturned s = false := by
  unfold hasReturned
  split
  · rename_i a ha
    exact absurd ha (h.running a)
  · rfl

/-- Sessions that use their tokens in turn do not race. -/
theorem unraced_of_inTurn {w : World server} {a : Action server} (h : inTurn w a = true) :
    Unraced w a := by
  rintro i j o s t jti k rfl hs hp hij ht huse
  have hlooks : w.sessions[i]?.any looksUp = true := by
    rw [hs, Option.any_some]
    unfold looksUp
    rw [hp]
  simp only [inTurn, hlooks, Bool.not_true, Bool.false_or] at h
  have hothers := List.all_eq_true.mp h j (List.mem_range.mpr (List.getElem?_eq_some_iff.mp ht).1)
  rw [ht, Option.all_some, huse.lookedUp, huse.not_returned, Bool.or_eq_true] at hothers
  rcases hothers with hsame | hnone
  · exact absurd (of_decide_eq_true hsame).symm hij
  · cases hnone

theorem FoundLive.mono {tr tr' : Trace} {jti : UUID} (h : FoundLive tr jti) (hp : tr <+: tr') :
    FoundLive tr' jti := by
  obtain ⟨x, hx, hlive⟩ := h
  exact ⟨x, seen_mono hx hp, hlive⟩

/-- Whoever may revoke a token presents it, and has found it live. -/
theorem found_of_revoking {call : Call} {tr : Trace} {jti : UUID}
    (h : CallAsks call tr (.sql (.revokeRefreshToken jti))) :
    call.Presents jti ∧ FoundLive tr jti := by
  cases call with
  | tenant actor e =>
    rcases h with hreads | ⟨hmay, _⟩
    · cases hreads
    · cases hmay with
      | copy _ hq => cases hq
      | edit _ _ hq => cases hq
      | delete _ _ hq => cases hq
  | refreshToken token =>
    rcases h with hreads | hmay
    · cases hreads
    · cases hmay with
      | rotate hx hlive => exact ⟨⟨_, rfl, rfl⟩, _, hx, hlive⟩
  | logout token =>
    rcases h with hreads | hmay
    · cases hreads
    · cases hmay with
      | logout hx hlive => exact ⟨⟨_, rfl, rfl⟩, _, hx, hlive⟩
  | _ =>
    rcases h with hreads | hmay
    · cases hreads
    · cases hmay

section

variable {C : World server → Action server → Prop} {d₀ : Database} {w : World server} {i j : Nat}
  {s s' t : Session server} {jti : UUID}

/-- Whoever has revoked a token has found it live before. -/
theorem found_of_committed (h : Reachable C (.init d₀) w) (hs : w.sessions[i]? = some s)
    (hdone : Committed s.trace (.revokeRefreshToken jti)) :
    s.call.Presents jti ∧ FoundLive s.trace jti := by
  obtain ⟨pre, r, b, hpre, hcur⟩ := hdone
  have hmem : (⟨.sql (.revokeRefreshToken jti), .ok r⟩ : Event Command Command.Resp) ∈ pre :=
    Engine.current_subset (E := server) (hcur ▸ List.mem_singleton_self _)
  obtain ⟨l, l', rfl⟩ := List.append_of_mem hmem
  have hissued : l ++ [⟨.sql (.revokeRefreshToken jti), .ok r⟩] <+: s.trace := by
    exact List.IsPrefix.trans ⟨l' ++ [⟨.commit, .ok b⟩], by simp⟩ hpre
  obtain ⟨hpresents, hfound⟩ :=
    found_of_revoking (h.asked_before (fun _ c _ => call_keeps c) hs hissued)
  exact ⟨hpresents, hfound.mono ((List.prefix_append _ _).trans hissued)⟩

/-! ## One call uses a token up -/

/-- The session has found the token live, and has revoked it or still may. -/
def Consuming (s : Session server) (jti : UUID) : Prop :=
  FoundLive s.trace jti ∧ (Committed s.trace (.revokeRefreshToken jti) ∨ ∀ a, s.prog ≠ .ret a)

theorem not_consuming_new {call : Call} : ¬ Consuming (.new call : Session server) jti := by
  rintro ⟨⟨x, hx, _⟩, _⟩
  exact Engine.not_seen_nil (E := server) hx

/-- What a session that moves has found, it had found before, or it looks it up now. -/
theorem Consuming.before (h : Reachable C (.init d₀) w) (hs : w.sessions[i]? = some s) {o : Oracle}
    {d' : Option Database} (hm : Move w.db (w.others i) o s s' d') (hc : Consuming s' jti) :
    Consuming s jti ∨
      ((∃ k, s.prog = .exec (.sql (.getRefreshTokenByJTI jti)) k) ∧
        ∃ x, w.db.refreshTokens.find jti = some x ∧ x.isRevoked = false) := by
  obtain ⟨⟨x, hx, hlive⟩, _⟩ := hc
  obtain ⟨c, k, hp⟩ := hm.running
  have hrunning : ∀ a, s.prog ≠ .ret a := by
    intro a ha
    rw [hp] at ha
    cases ha
  by_cases hold : FoundToken s.trace jti x
  · exact Or.inl ⟨⟨x, hold, hlive⟩, Or.inr hrunning⟩
  · refine Or.inr ⟨?_, x, ?_, hlive⟩
    · cases hm.told with
      | wait _ htr _ =>
        rw [htr] at hx
        exact absurd hx hold
      | answer r hp' _ _ htr _ _ =>
        rw [htr] at hx
        rcases (Engine.seen_append (E := server)).mp hx with hx | ⟨hev, _⟩
        · exact absurd hx hold
        · cases hev
          exact ⟨_, hp'⟩
    · obtain ⟨_, _, _, _, _, _, hread⟩ := (h.seen_now hs hm rfl hx).resolve_left hold
      obtain ⟨hmem, hjti⟩ := refreshTokenRows.mem_of_first (Except.ok.inj hread)
      obtain rfl := of_decide_eq_true hjti
      exact get_refreshToken.mp ((refreshTokenRows.mem_rows w.db x).mp hmem)

/-- A command that fails finds nothing. -/
theorem Consuming.unbroken (hb : Broken s s') (hc : Consuming s' jti) : Consuming s jti := by
  obtain ⟨⟨x, hx, hlive⟩, _⟩ := hc
  obtain ⟨c, k, hp⟩ := hb.running
  refine ⟨⟨x, hb.seen hx, hlive⟩, Or.inr fun a ha => ?_⟩
  rw [hp] at ha
  cases ha

/-- Two sessions that both use the token up are two logouts. -/
def OneConsumer (w : World server) : Prop :=
  ∀ (i j : Nat) (s t : Session server) (jti : UUID), w.sessions[i]? = some s →
    w.sessions[j]? = some t → i ≠ j → s.call.isRefresh = true ∨ t.call.isRefresh = true →
    Consuming s jti → ¬ Consuming t jti

/-- It is enough to look at the session that has changed, the other one being as before. -/
theorem OneConsumer.set {w' : World server} (h : OneConsumer w) (hs : w.sessions[i]? = some s)
    (hsessions : w'.sessions = w.sessions.set i s') (hcall : s'.call = s.call)
    (hmoved : ∀ (j : Nat) (t : Session server) (jti : UUID), w.sessions[j]? = some t → i ≠ j →
      s.call.isRefresh = true ∨ t.call.isRefresh = true → Consuming s' jti → Consuming t jti →
      Consuming s jti) : OneConsumer w' := by
  have hpair : ∀ (j : Nat) (t : Session server) (jti : UUID), w.sessions[j]? = some t → i ≠ j →
      s'.call.isRefresh = true ∨ t.call.isRefresh = true → Consuming s' jti → ¬ Consuming t jti := by
    intro j t jti ht hij hrefresh hcs hct
    rw [hcall] at hrefresh
    exact h i j s t jti hs ht hij hrefresh (hmoved j t jti ht hij hrefresh hcs hct) hct
  intro j k t u jti ht hu hjk hrefresh hct hcu
  rw [hsessions] at ht hu
  rcases List.getElem?_of_set ht with ⟨rfl, rfl⟩ | ⟨_, ht'⟩
  · rcases List.getElem?_of_set hu with ⟨rfl, _⟩ | ⟨_, hu'⟩
    · exact hjk rfl
    · exact hpair k u jti hu' hjk hrefresh hct hcu
  · rcases List.getElem?_of_set hu with ⟨rfl, rfl⟩ | ⟨_, hu'⟩
    · exact hpair j t jti ht' (Ne.symm hjk) hrefresh.symm hcu hct
    · exact h j k t u jti ht' hu' hjk hrefresh hct hcu

/-- **A token is used up once**, or by logouts only. -/
theorem oneConsumer (hC : ∀ w a, C w a → Unraced w a) (h : Reachable C (.init d₀) w) :
    OneConsumer w := by
  refine h.invariant (I := OneConsumer) ?_ fun w w' a hr ih hc hstep => ?_
  · intro i j s t jti hs
    cases hs
  cases World.step_cases hstep with
  | start c =>
    intro i j s t jti hs ht hij hrefresh hcs hct
    rcases List.getElem?_of_concat hs with ⟨_, rfl⟩ | hs
    · exact not_consuming_new hcs
    · rcases List.getElem?_of_concat ht with ⟨_, rfl⟩ | ht
      · exact not_consuming_new hct
      · exact ih i j s t jti hs ht hij hrefresh hcs hct
  | @move i o s s' d' hs hm =>
    refine ih.set hs rfl hm.told.call_eq fun j t jti ht hij hrefresh hcs hct => ?_
    rcases hcs.before hr hs hm with hcs | ⟨⟨k, hp⟩, x, hx, hlive⟩
    · exact hcs
    · -- It looks the token up now and finds it live, so that `t` cannot have revoked it.
      rcases hct with ⟨hfound, hdone⟩
      by_cases hrevoked : Committed t.trace (.revokeRefreshToken jti)
      · obtain ⟨y, hy, hrev⟩ := revoked_of_committed hr ht hrevoked
        rw [hx] at hy
        cases hy
        rw [hlive] at hrev
        cases hrev
      · have huse : InUse t jti := ⟨hfound, hdone.resolve_left hrevoked, hrevoked⟩
        obtain ⟨hsc, htc⟩ := hC w _ hc i j o s t jti k rfl hs hp hij ht huse
        rw [hsc, htc] at hrefresh
        rcases hrefresh with h | h
        · cases h
        · cases h
  | broke ha hs hb =>
    have hcall := (hb.told (d := w.db)).call_eq
    exact ih.set hs rfl hcall fun j t jti ht hij hrefresh hcs hct => hcs.unbroken hb

/-- A refresh or a logout that has succeeded has used its token up. -/
theorem consuming_of_succeeded (h : Reachable C (.init d₀) w) (hs : w.sessions[i]? = some s)
    {p : Payload} (hp : s.prog = .ret (.ok p)) {c : RefreshTokenClaims}
    (hcall : s.call = .refreshToken (.signed c) ∨ s.call = .logout (.signed c)) :
    Consuming s c.jti ∧ Committed s.trace (.revokeRefreshToken c.jti) := by
  have hreturned := returned h hs hp
  have hdone : Committed s.trace (.revokeRefreshToken c.jti) := by
    rcases hcall with hcall | hcall
    · rw [hcall] at hreturned
      obtain ⟨c', hc, hdone⟩ := hreturned p rfl
      cases hc
      exact hdone
    · rw [hcall] at hreturned
      obtain ⟨c', hc, hdone⟩ := hreturned p rfl
      cases hc
      exact hdone
  exact ⟨⟨(found_of_committed h hs hdone).2, Or.inl hdone⟩, hdone⟩

end

/-! ## Single use -/

/-- Of the calls with this token at most one refresh has returned tokens, and none if a logout has succeeded. -/
structure UsedOnce (w : World server) (token : RefreshTokenText) : Prop where
  one : ∀ (i j : Nat) (s t : Session server) (p q : Payload), w.sessions[i]? = some s →
    w.sessions[j]? = some t → s.call = .refreshToken token → t.call = .refreshToken token →
    s.prog = .ret (.ok p) → t.prog = .ret (.ok q) → i = j
  loggedOut : ∀ (i j : Nat) (s t : Session server) (p q : Payload), w.sessions[i]? = some s →
    w.sessions[j]? = some t → s.call = .logout token → t.call = .refreshToken token →
    s.prog = .ret (.ok p) → t.prog ≠ .ret (.ok q)

section

variable {d₀ : Database} {w : World server}

/-- A call that has succeeded with a token was given one of ours. -/
theorem signed_of_succeeded (h : Reachable Unraced (.init d₀) w) {i : Nat} {s : Session server}
    (hs : w.sessions[i]? = some s) {p : Payload} (hp : s.prog = .ret (.ok p))
    {token : RefreshTokenText} (hcall : s.call = .refreshToken token ∨ s.call = .logout token) :
    ∃ c, token = .signed c := by
  have hreturned := returned h hs hp
  rcases hcall with hcall | hcall
  · rw [hcall] at hreturned
    obtain ⟨c, hc, _⟩ := hreturned p rfl
    exact ⟨c, hc⟩
  · rw [hcall] at hreturned
    obtain ⟨c, hc, _⟩ := hreturned p rfl
    exact ⟨c, hc⟩

/-- No two calls with one token succeed of which one is a refresh. -/
theorem not_both_succeeded (h : Reachable Unraced (.init d₀) w) {i j : Nat} {s t : Session server}
    (hs : w.sessions[i]? = some s) (ht : w.sessions[j]? = some t) {p q : Payload}
    (hp : s.prog = .ret (.ok p)) (hq : t.prog = .ret (.ok q)) {token : RefreshTokenText}
    (hscall : s.call = .refreshToken token ∨ s.call = .logout token)
    (htcall : t.call = .refreshToken token) (hij : i ≠ j) : False := by
  obtain ⟨c, rfl⟩ := signed_of_succeeded h hs hp hscall
  have hcs := (consuming_of_succeeded h hs hp hscall).1
  have hct := (consuming_of_succeeded h ht hq (Or.inl htcall)).1
  have hrefresh : t.call.isRefresh = true := by
    rw [htcall]
    rfl
  exact oneConsumer (fun _ _ h => h) h i j s t c.jti hs ht hij (Or.inr hrefresh) hcs hct

/-- **Without races a refresh token is used once.** -/
theorem usedOnce_of_unraced (h : Reachable Unraced (.init d₀) w) (token : RefreshTokenText) :
    UsedOnce w token where
  one i j s t p q hs ht hscall htcall hp hq := by
    by_contra hij
    exact not_both_succeeded h hs ht hp hq (Or.inl hscall) htcall hij
  loggedOut i j s t p q hs ht hscall htcall hp hq := by
    refine not_both_succeeded h hs ht hp hq (Or.inr hscall) htcall ?_
    rintro rfl
    cases hs.symm.trans ht
    rw [hscall] at htcall
    cases htcall

namespace Sample

/-- Two refreshes and a logout with the token of the owner, all three of them about to look it up. -/
def threeUses : List (Action server) :=
  [.start (.refreshToken (.signed claims)), .start (.refreshToken (.signed claims)),
    .start (.logout (.signed claims))] ++ turns 0 3 100 ++ turns 1 3 110 ++ turns 2 3 120

/-- The first refresh goes on to its end, then the second, then the logout. -/
def refreshFirst : List (Action server) := threeUses ++ turns 0 28 200 ++ turns 1 8 300 ++ turns 2 3 400

/-- The logout goes on to its end, and then the refreshes. -/
def logoutFirst : List (Action server) := threeUses ++ turns 2 8 200 ++ turns 1 7 300 ++ turns 0 7 400

end Sample

/-- How a logout with this token has ended. -/
def logoutEnded (token : RefreshTokenText) (ok : Outcome → Bool) (s : Session server) : Bool :=
  match s.call, s.prog with
  | .logout t, .ret a => t = token && ok a
  | _, _ => false

/--
Two refreshes and a logout in turn. If the logout comes last, the first of them
returns tokens; if it comes first, it succeeds. The others are told that the token
is revoked.
-/
theorem usedOnce_of_threeUses :
    (∃ w : World server, Reachable Unraced (.init Sample.database) w ∧
      w.sessions[0]?.any (refreshEnded (.signed Sample.claims) Except.isOk) = true ∧
      w.sessions[1]?.any (refreshEnded (.signed Sample.claims) Sample.tokenRevoked) = true ∧
      w.sessions[2]?.any (logoutEnded (.signed Sample.claims) Sample.tokenRevoked) = true ∧
      UsedOnce w (.signed Sample.claims)) ∧
    ∃ w : World server, Reachable Unraced (.init Sample.database) w ∧
      w.sessions[2]?.any (logoutEnded (.signed Sample.claims) Except.isOk) = true ∧
      w.sessions[1]?.any (refreshEnded (.signed Sample.claims) Sample.tokenRevoked) = true ∧
      w.sessions[0]?.any (refreshEnded (.signed Sample.claims) Sample.tokenRevoked) = true ∧
      UsedOnce w (.signed Sample.claims) := by
  have hrefresh : ((World.init Sample.database : World server).run inTurn Sample.refreshFirst).any (fun w =>
      w.sessions[0]?.any (refreshEnded (.signed Sample.claims) Except.isOk) &&
      w.sessions[1]?.any (refreshEnded (.signed Sample.claims) Sample.tokenRevoked) &&
      w.sessions[2]?.any (logoutEnded (.signed Sample.claims) Sample.tokenRevoked)) = true := by
    decide +kernel
  have hlogout : ((World.init Sample.database : World server).run inTurn Sample.logoutFirst).any (fun w =>
      w.sessions[2]?.any (logoutEnded (.signed Sample.claims) Except.isOk) &&
      w.sessions[1]?.any (refreshEnded (.signed Sample.claims) Sample.tokenRevoked) &&
      w.sessions[0]?.any (refreshEnded (.signed Sample.claims) Sample.tokenRevoked)) = true := by
    decide +kernel
  obtain ⟨w, hw, hended⟩ := exists_of_run (C := Unraced) (fun w a h => unraced_of_inTurn h) hrefresh
  obtain ⟨w', hw', hended'⟩ := exists_of_run (C := Unraced) (fun w a h => unraced_of_inTurn h) hlogout
  simp only [Bool.and_eq_true, and_assoc] at hended hended'
  obtain ⟨hfirst, hsecond, hthird⟩ := hended
  obtain ⟨hfirst', hsecond', hthird'⟩ := hended'
  exact ⟨⟨w, hw, hfirst, hsecond, hthird, usedOnce_of_unraced hw _⟩,
    w', hw', hfirst', hsecond', hthird', usedOnce_of_unraced hw' _⟩

/-- Two refreshes with one token: the second runs after the first has found it live. -/
def Sample.twoRefreshes : List (Action server) :=
  [.start (.refreshToken (.signed Sample.claims)), .start (.refreshToken (.signed Sample.claims))] ++
    turns 0 5 100 ++ turns 1 31 200 ++ turns 0 26 300

/-- **Both of them return new tokens.** -/
theorem not_usedOnce_of_twoRefreshes : ∃ w : World server,
    Reachable (fun _ _ => True) (.init Sample.database) w ∧ ¬ UsedOnce w (.signed Sample.claims) := by
  have hrun : ((World.init Sample.database : World server).run (fun _ _ => true)
      Sample.twoRefreshes).any (fun w =>
        w.sessions[0]?.any (refreshEnded (.signed Sample.claims) Except.isOk) &&
        w.sessions[1]?.any (refreshEnded (.signed Sample.claims) Except.isOk)) = true := by
    decide +kernel
  obtain ⟨w, hw, hok⟩ := exists_of_run (C := fun _ _ => True) (fun _ _ _ => trivial) hrun
  simp only [Bool.and_eq_true, Option.any_eq_true] at hok
  obtain ⟨⟨s, hs, hfirst⟩, t, ht, hsecond⟩ := hok
  obtain ⟨a, hscall, hp, ha⟩ := refreshEnded_eq_true hfirst
  obtain ⟨b, htcall, hq, hb⟩ := refreshEnded_eq_true hsecond
  refine ⟨w, hw, fun hused => ?_⟩
  cases a with
  | error err => cases ha
  | ok p =>
    cases b with
    | error err => cases hb
    | ok q => exact absurd (hused.one 0 1 s t p q hs ht hscall htcall hp hq) (by decide)

end

/-! ## A refresh stores one token -/

/-- The command stores a refresh token. -/
def Stores : Command → Prop
  | .sql (.createRefreshToken ..) => True
  | _ => False

/-- No refresh token has been stored. -/
def Unstored (tr : Trace) : Prop := ∀ ev ∈ tr, ¬ Stores ev.1

/-- A refresh stores at most one token. -/
def OnceAsks (call : Call) (tr : Trace) (c : Command) : Prop :=
  call.isRefresh = true → Stores c → Unstored tr

/-- The contract of a client that stores one token. -/
abbrev onceContract : Contract Command Command.Resp :=
  server.contract fun tr c => Stores c → Unstored tr

/-- The service stores no token. -/
abbrev Storeless {α : Type} (x : Service α) : Prop := Svc.Only (fun c => ¬ Stores c) x

/-- The service keeps the contract, whatever it ends with. -/
abbrev StoresOnce {α : Type} (tr : Trace) (x : Service α) : Prop :=
  Svc.ends onceContract tr x fun _ _ => True

section

variable {α β : Type} {tr : Trace} {x : Service β} {f : β → Service α}

theorem storeless_exts (h : Svc.Only IsExt x) : Storeless x := by
  refine Prog.only_mono h fun c hc => ?_
  cases c with
  | ext y => exact id
  | _ => exact hc.elim

theorem storeless_autocommit {q : Stmt} (hq : ¬ Stores (.sql q)) : Storeless (autocommit q) := by
  refine Svc.only_bind (Svc.only_call id) fun b => Svc.only_bind Svc.only_ofExcept fun _ =>
    Svc.only_bind (Svc.only_call hq) fun r => ?_
  cases r with
  | ok y =>
    exact Svc.only_bind (Svc.only_call id) fun c => Svc.only_bind Svc.only_ofExcept fun _ =>
      Svc.only_pure
  | error e => exact Svc.only_bind (Svc.only_call id) fun _ => Svc.only_throw

theorem storeless_orNoRows {R : Type} {e : DomainError} {row : Option R} :
    Storeless (orNoRows e row) := by
  cases row with
  | none => exact Svc.only_throw
  | some r => exact Svc.only_pure

/-- A row that is looked up on a bare connection. -/
theorem storeless_row {R : Type} {q : Stmt} {context : String} {e : DomainError}
    (hq : ¬ Stores (.sql q)) {g : q.Result → Option R} :
    Storeless (do let row ← errorf context (autocommit q); orNoRows e (g row)) :=
  Svc.only_bind (Svc.only_mapError (storeless_autocommit hq)) fun _ => storeless_orNoRows

theorem storesOnce_of_storeless {y : Service α} (h : Storeless y) : StoresOnce tr y :=
  Prog.wp_of_only h (fun _ _ hc hs => absurd hs hc) fun _ _ _ => trivial

/-- What comes first stores nothing. -/
theorem storesOnce_bind (hx : Storeless x) (h : Unstored tr)
    (hf : ∀ tr' b, Unstored tr' → StoresOnce tr' (f b)) : StoresOnce tr (x >>= f) := by
  unfold StoresOnce
  rw [Svc.ends_bind]
  refine Prog.wp_of_only_inv (I := Unstored) hx (fun _ _ _ hc hs => absurd hs hc)
    (fun tr' c r hI hc _ => ?_) h fun tr' r hI => ?_
  · intro ev hev
    rcases List.mem_append.mp hev with hev | hev
    · exact hI ev hev
    · rw [List.mem_singleton.mp hev]
      exact hc
  · cases r with
    | ok b => exact hf tr' b hI
    | error e => trivial

/-- What comes last stores nothing. -/
theorem storesOnce_before (hx : StoresOnce tr x) (hf : ∀ b, Storeless (f b)) :
    StoresOnce tr (x >>= f) := by
  unfold StoresOnce
  rw [Svc.ends_bind]
  refine Svc.ends_mono hx fun tr' r _ => ?_
  cases r with
  | ok b => exact storesOnce_of_storeless (hf b)
  | error e => trivial

theorem storesOnce_errorf {context : String} {y : Service α} (h : StoresOnce tr y) :
    StoresOnce tr (errorf context y) := by
  unfold StoresOnce errorf
  rw [Svc.ends_mapError]
  exact h

/-- The statement that stores it. -/
theorem storesOnce_autocommit {q : Stmt} (h : Unstored tr) : StoresOnce tr (autocommit q) := by
  refine storesOnce_bind (Svc.only_call id) h fun tr₁ b h₁ =>
    storesOnce_bind Svc.only_ofExcept h₁ fun tr₂ _ h₂ => ?_
  refine storesOnce_before ⟨fun _ => h₂, fun _ _ => trivial⟩ fun r => ?_
  cases r with
  | ok y =>
    exact Svc.only_bind (Svc.only_call id) fun c => Svc.only_bind Svc.only_ofExcept fun _ =>
      Svc.only_pure
  | error e => exact Svc.only_bind (Svc.only_call id) fun _ => Svc.only_throw

theorem storesOnce_withConn {context : String} {body : Service α} (h : Unstored tr)
    (hbody : ∀ tr', Unstored tr' → StoresOnce tr' body) :
    StoresOnce tr (withConn context body) := by
  refine storesOnce_bind (Svc.only_call id) h fun tr₁ conn h₁ =>
    storesOnce_bind (Svc.only_mapError Svc.only_ofExcept) h₁ fun tr₂ _ h₂ => ?_
  refine storesOnce_before ?_ fun r => Svc.only_bind (Svc.only_call id) fun _ => Svc.only_ofExcept
  unfold StoresOnce
  rw [Svc.ends_attempt]
  exact hbody tr₂ h₂

theorem storesOnce_rotate {c : RefreshTokenClaims} (h : Unstored tr) :
    StoresOnce tr (AuthService.rotate c) := by
  refine storesOnce_bind (Svc.only_mapError (Svc.only_mapError (storeless_autocommit id))) h
    fun tr₁ _ h₁ => ?_
  refine storesOnce_bind (Svc.only_mapError (storeless_row id)) h₁ fun tr₂ m h₂ => ?_
  refine storesOnce_bind (Svc.only_mapError (storeless_row id)) h₂ fun tr₃ t h₃ => ?_
  refine storesOnce_bind (Svc.only_mapError (storeless_row id)) h₃ fun tr₄ u h₄ => ?_
  refine storesOnce_bind (Svc.only_mapError (storeless_exts exts_generateAccessToken)) h₄
    fun tr₅ _ h₅ => ?_
  refine storesOnce_before ?_ fun _ => Svc.only_pure
  refine storesOnce_bind (Svc.only_mapError (storeless_exts exts_generateRefreshToken)) h₅
    fun tr₆ _ h₆ => ?_
  refine storesOnce_bind (Svc.only_mapError (storeless_exts exts_verifyRefreshToken)) h₆
    fun tr₇ _ h₇ => ?_
  refine storesOnce_bind (Svc.only_call id) h₇ fun tr₈ _ h₈ => ?_
  exact storesOnce_before (storesOnce_errorf (storesOnce_errorf (storesOnce_autocommit h₈)))
    fun _ => Svc.only_pure

theorem storesOnce_refreshToken {token : RefreshTokenText} (h : Unstored tr) :
    StoresOnce tr (AuthService.refreshToken token) := by
  refine storesOnce_bind (storeless_exts exts_verifyRefreshToken) h fun tr₁ c h₁ => ?_
  refine storesOnce_withConn h₁ fun tr₂ h₂ => ?_
  have hlookup : Storeless (notFoundIs .invalidToken "authService.RefreshToken: get refresh token"
      (RefreshTokenRepo.getByJTI .conn c.jti)) := by
    refine Svc.only_bind (Svc.only_attempt (storeless_row id)) fun r => ?_
    cases r with
    | ok x => exact Svc.only_pure
    | error e =>
      show Storeless (if _ then _ else _)
      split
      · exact Svc.only_throw
      · exact Svc.only_throw
  refine storesOnce_bind hlookup h₂ fun tr₃ stored h₃ => ?_
  split
  · exact storesOnce_of_storeless (Svc.only_bind (Svc.only_attempt (Svc.only_mapError
      (storeless_autocommit id))) fun _ => Svc.only_throw)
  · exact storesOnce_rotate h₃

/-- **A refresh stores at most one token.** -/
theorem call_storesOnce (call : Call) :
    Prog.wp (server.contract (OnceAsks call)) [] (server.code call) fun _ _ => True := by
  cases call with
  | refreshToken token =>
    have honce : StoresOnce [] (AuthService.refreshToken token >>= fun r => pure (Payload.auth r)) :=
      storesOnce_before (storesOnce_refreshToken fun _ h => absurd h List.not_mem_nil)
        fun _ => Svc.only_pure
    exact Prog.wp_weaken honce (fun tr c hasks _ => hasks) fun tr c r hr => hr
  | _ => exact Prog.wp_of_free (fun _ _ h => absurd h Bool.false_ne_true) fun _ _ => trivial

end

/-! ## What descends from a token -/

/-- The refresh token of this name was stored. -/
def Stored (tr : Trace) (jti : UUID) : Prop :=
  ∃ u digest expiresAt row,
    (⟨.sql (.createRefreshToken jti u digest expiresAt), .ok row⟩ : Event Command Command.Resp) ∈ tr

/-- A refresh with the token `a` has stored the token `b`. -/
def Yields (w : World server) (a b : UUID) : Prop :=
  ∃ (i : Nat) (s : Session server) (c : RefreshTokenClaims), w.sessions[i]? = some s ∧
    s.call = .refreshToken (.signed c) ∧ c.jti = a ∧ Stored s.trace b

/-- `b` is `a`, or what a refresh with it has stored, or a refresh with that, and so on. -/
abbrev Descends (w : World server) : UUID → UUID → Prop := Relation.ReflTransGen (Yields w)

section

variable {C : World server → Action server → Prop} {d₀ : Database} {w : World server} {i j : Nat}
  {s t : Session server} {c : RefreshTokenClaims} {a b b' : UUID}

theorem stored_once (h : Reachable C (.init d₀) w) (hs : w.sessions[i]? = some s)
    (hcall : s.call.isRefresh = true) (hb : Stored s.trace b) (hb' : Stored s.trace b') : b = b' := by
  -- A command that stores a token comes after none that does.
  have hfirst : ∀ {l l' : Trace} {ev : Event Command Command.Resp}, s.trace = l ++ ev :: l' →
      Stores ev.1 → Unstored l := by
    intro l l' ev hl hev
    have hpre : l ++ [ev] <+: s.trace :=
      ⟨l', by rw [hl, List.append_assoc, List.singleton_append]⟩
    exact h.asked_before (fun _ c _ => call_storesOnce c) hs hpre hcall hev
  obtain ⟨u, digest, expiresAt, row, hmem⟩ := hb
  obtain ⟨u', digest', expiresAt', row', hmem'⟩ := hb'
  obtain ⟨l, l', hl⟩ := List.append_of_mem hmem
  rw [hl] at hmem'
  rcases List.mem_append.mp hmem' with hbefore | hafter
  · exact absurd trivial (hfirst hl trivial _ hbefore)
  · rcases List.mem_cons.mp hafter with heq | hafter
    · cases heq
      rfl
    · obtain ⟨m, m', rfl⟩ := List.append_of_mem hafter
      have hl' := hl
      rw [List.append_cons, ← List.append_assoc] at hl'
      have hearlier := hfirst hl' trivial _
        (List.mem_append_left _ (List.mem_append_right _ (List.mem_singleton_self _)))
      exact absurd trivial hearlier

/-- Whoever stores a token by a refresh has revoked the one it has presented. -/
theorem committed_of_stored (h : Reachable C (.init d₀) w) (hs : w.sessions[i]? = some s)
    (hcall : s.call = .refreshToken (.signed c)) (hb : Stored s.trace b) :
    Committed s.trace (.revokeRefreshToken c.jti) := by
  obtain ⟨u, digest, expiresAt, row, hmem⟩ := hb
  obtain ⟨l, l', hl⟩ := List.append_of_mem hmem
  rw [List.append_cons] at hl
  have hpre : l ++ [⟨.sql (.createRefreshToken b u digest expiresAt), .ok row⟩] <+: s.trace :=
    hl ▸ List.prefix_append _ _
  have hask := h.asked_before (fun _ c _ => call_keeps c) hs hpre
  rw [hcall] at hask
  rcases hask with hreads | hmay
  · cases hreads
  · cases hmay with
    | newToken hdone hu => exact hdone.mono ((List.prefix_append _ _).trans hpre)

theorem consuming_of_stored (h : Reachable C (.init d₀) w) (hs : w.sessions[i]? = some s)
    (hcall : s.call = .refreshToken (.signed c)) (hb : Stored s.trace b) : Consuming s c.jti := by
  have hdone := committed_of_stored h hs hcall hb
  exact ⟨(found_of_committed h hs hdone).2, Or.inl hdone⟩

/-- A token that has yielded another one is revoked. -/
theorem revoked_of_yields (h : Reachable C (.init d₀) w) (hab : Yields w a b) :
    ∃ x, w.db.refreshTokens.find a = some x ∧ x.isRevoked = true := by
  obtain ⟨i, s, c, hs, hcall, rfl, hb⟩ := hab
  exact revoked_of_committed h hs (committed_of_stored h hs hcall hb)

theorem rightUnique_yields (hC : ∀ w a, C w a → Unraced w a) (h : Reachable C (.init d₀) w) :
    Relator.RightUnique (Yields w) := by
  intro a b b' hab hab'
  obtain ⟨i, s, c, hs, hcall, rfl, hb⟩ := hab
  obtain ⟨j, t, c', ht, hcall', hjti, hb'⟩ := hab'
  have hrefresh : s.call.isRefresh = true := by
    rw [hcall]
    rfl
  by_cases hij : i = j
  · subst hij
    cases hs.symm.trans ht
    exact stored_once h hs hrefresh hb hb'
  · have hcs := consuming_of_stored h hs hcall hb
    have hct := consuming_of_stored h ht hcall' hb'
    rw [hjti] at hct
    exact absurd hct (oneConsumer hC h i j s t c.jti hs ht hij (Or.inl hrefresh) hcs)

end

end ExpenseSaas
