import ExpenseSaas.Frontend.SingleFlight
import ExpenseSaas.Workflow.Logouts

/-!
# Logging out

The page and the server together. What the page has posted is in flight until a
call of the server starts for it, and what a call has returned is in flight until
the page takes it; both may come late, in any order, or never. Calls of anybody
else start at any time.

A logout ends its session when the server has handled it before any refresh with
its token, nobody else was using the token up at that moment (`Unraced`), and no
refresh with another token is under way (`Undisturbed`): then
`loggedOut_of_undisturbed`. The client does not see to the first: a refresh that
reaches the server before the logout does leaves the logout with a token that is
revoked already, and the new one lives on.
-/

namespace ExpenseSaas

namespace Frontend

open ReadCommitted Page

/-- The token a refresh that is not settled was posted with. -/
def Refresh.token {R : Type} : Refresh R → Option R
  | .posted rt => some rt
  | .reading rt => some rt
  | .settled _ => none

/-- A page and the server. -/
structure System where
  page : Page AccessToken RefreshTokenText
  world : World server

namespace System

/-- What happens next: a turn of the page, or a step of the server. -/
inductive Act where
  | page (e : Turn AccessToken RefreshTokenText)
  | world (a : Action server)

/-- A page that was just loaded. -/
def load (store : AuthStore AccessToken RefreshTokenText) (d : Database) : System :=
  ⟨Page.load store, .init d⟩

/-- A logout with this token has succeeded on the server. -/
def accepted (s : System) (rt : RefreshTokenText) : Bool :=
  s.world.sessions.any fun x => match x.call, x.prog with
    | .logout t, .ret (.ok _) => t = rt
    | _, _ => false

/-- A refresh with this token has succeeded on the server, with a result that is `ok`. -/
def renewed (s : System) (rt : RefreshTokenText) (ok : AuthResult → Bool) : Bool :=
  s.world.sessions.any fun x => match x.call, x.prog with
    | .refreshToken t, .ret (.ok (.auth r)) => t = rt && ok r
    | _, _ => false

/-- A login or a signup has succeeded on the server, with a result that is `ok`. -/
def loggedIn (s : System) (ok : AuthResult → Bool) : Bool :=
  s.world.sessions.any fun x => match x.call, x.prog with
    | .login _ _, .ret (.ok (.auth r)) => ok r
    | .signup _, .ret (.ok (.auth r)) => ok r
    | _, _ => false

/-- The tokens of a result. -/
def carries (t : AuthTokens AccessToken RefreshTokenText) (r : AuthResult) : Bool :=
  r.accessToken = t.accessToken && r.refreshToken = t.refreshToken

/-- The server has returned what the page is told in this turn. -/
def delivers (s : System) : Turn AccessToken RefreshTokenText → Bool
  | .answer i r => s.page.logouts.all fun l => match l.sent with
      | some (rt, j) => !(j = i && r.ok) || s.accepted rt
      | none => true
  | .refreshAnswer p r => match s.page.refreshes[p]? with
      | some (.posted rt) => !r.ok || s.renewed rt fun _ => true
      | _ => true
  | .refreshBody p (some t) => match s.page.refreshes[p]? with
      | some (.reading rt) => s.renewed rt (carries t)
      | _ => true
  | .login t => s.loggedIn (carries t)
  | _ => true

/-- The next state, or `none` when this cannot happen. -/
def step (s : System) : Act → Option System
  | .page e => if s.delivers e then (s.page.step e).map fun p => { s with page := p } else none
  | .world a => (s.world.step a).map fun w => { s with world := w }

theorem step_page {s s' : System} {e : Turn AccessToken RefreshTokenText}
    (h : s.step (.page e) = some s') :
    s.delivers e = true ∧ ∃ p, s.page.step e = some p ∧ s' = { s with page := p } := by
  simp only [step] at h
  split at h
  · rename_i hdelivers
    obtain ⟨p, hp, rfl⟩ := Option.map_eq_some_iff.mp h
    exact ⟨hdelivers, p, hp, rfl⟩
  · cases h

theorem step_world {s s' : System} {a : Action server} (h : s.step (.world a) = some s') :
    ∃ w, s.world.step a = some w ∧ s' = { s with world := w } := by
  obtain ⟨w, hw, rfl⟩ := Option.map_eq_some_iff.mp h
  exact ⟨w, hw, rfl⟩

/-- The states that are reached from `s₀` by steps that satisfy `C`. -/
inductive Reachable (C : System → Act → Prop) (s₀ : System) : System → Prop where
  | start : Reachable C s₀ s₀
  | tail {s s' : System} {e : Act} :
      Reachable C s₀ s → C s e → s.step e = some s' → Reachable C s₀ s'

/-- The state after these steps, if each of them passes `c`. -/
def run (c : System → Act → Bool) : System → List Act → Option System := Replay.run step c

/-- Nothing is under way. -/
structure Quiet (s : System) : Prop where
  calls : ∀ c ∈ s.page.calls, c.state = .returned
  refreshes : ∀ x ∈ s.page.refreshes, x.pending = false
  logouts : ∀ l ∈ s.page.logouts, l.settled = true
  sessions : ∀ x ∈ s.world.sessions, ∃ a, x.prog = .ret a

/--
The session of this token is over: the page has no tokens, and the tokens that
descend from where the session began are revoked.
-/
structure LoggedOut (s : System) (rt : RefreshTokenText) : Prop where
  store : s.page.store = clearTokens
  revoked : ∀ c a b x, rt = .signed c → Descends s.world a c.jti → Descends s.world a b →
    s.world.db.refreshTokens.find b = some x → x.isRevoked = true

/-- This step settles a logout that has sent this token. -/
def Settles (s : System) (e : Act) (rt : RefreshTokenText) : Prop :=
  ∃ j l i, e = .page (.settleLogout j) ∧ s.page.logouts[j]? = some l ∧ l.sent = some (rt, i)

/-- On the server, no two calls of which one is a refresh use a token up at the same time. -/
def Fair (s : System) : Act → Prop
  | .page _ => True
  | .world a => Unraced s.world a

/-- Nobody logs in. -/
def NoLogin (_ : System) (e : Act) : Prop := ∀ t, e ≠ .page (.login t)

/--
The server has handled a logout with this token and no refresh with it has come
first, and no refresh is under way that was posted with another token.
-/
structure Undisturbed (s : System) (rt : RefreshTokenText) : Prop where
  handled : ∃ x ∈ s.world.sessions, ∃ c, rt = .signed c ∧ Handled x c
  first : ∀ c, rt = .signed c → Unused s.world c.jti
  refreshes : ∀ x ∈ s.page.refreshes, ∀ rt', x.token = some rt' → rt' = rt

/-! ## The server of a run -/

section

variable {C : System → Act → Prop} {s₀ s s' : System} {store : AuthStore AccessToken RefreshTokenText}
  {d : Database} {rt : RefreshTokenText}

/-- The server's side of a run is a run of the server. -/
theorem reachable_world (hC : ∀ s e, C s e → Fair s e) (h : Reachable C (load store d) s) :
    ReadCommitted.Reachable Unraced (.init d) s.world := by
  induction h with
  | start => exact .init
  | @tail s s' e hr hc hstep ih =>
    cases e with
    | page e =>
      obtain ⟨_, p, _, rfl⟩ := step_page hstep
      exact ih
    | world a =>
      obtain ⟨w, hw, rfl⟩ := step_world hstep
      exact ih.tail (hC s _ hc) hw

theorem session_of_renewed {ok : AuthResult → Bool} (h : s.renewed rt ok = true) :
    ∃ (i : Nat) (x : Session server) (p : Payload), s.world.sessions[i]? = some x ∧
      x.call = .refreshToken rt ∧ x.prog = .ret (.ok p) := by
  unfold renewed at h
  rw [List.any_eq_true] at h
  obtain ⟨x, hx, hok⟩ := h
  obtain ⟨i, hi⟩ := List.mem_iff_getElem?.mp hx
  split at hok
  · rename_i t r hcall hp
    have ht := of_decide_eq_true ((Bool.and_eq_true _ _).mp hok).1
    exact ⟨i, x, _, hi, ht ▸ hcall, hp⟩
  · cases hok

/-- A token that no refresh has come to is not renewed. -/
theorem not_renewed (h : ReadCommitted.Reachable Unraced (.init d) s.world)
    (hfirst : ∀ c, rt = .signed c → Unused s.world c.jti) {ok : AuthResult → Bool} :
    s.renewed rt ok = false := by
  refine Bool.eq_false_iff.mpr fun hnew => ?_
  obtain ⟨i, x, p, hx, hcall, hp⟩ := session_of_renewed hnew
  obtain ⟨c, rfl⟩ := signed_of_succeeded h hx hp (Or.inl hcall)
  refine hfirst c rfl x (List.mem_of_getElem? hx) ?_ (consuming_of_succeeded h hx hp (Or.inl hcall)).1
  rw [hcall]
  rfl

end

/-! ## After the logout -/

/-- What is true from the moment on at which the logout is settled. -/
structure Ended (s : System) (rt : RefreshTokenText) : Prop where
  store : s.page.store = clearTokens
  undisturbed : Undisturbed s rt

section

variable {C : System → Act → Prop} {s₀ s s' : System} {store : AuthStore AccessToken RefreshTokenText}
  {d : Database} {rt : RefreshTokenText}

/-- The page has moved, and its refreshes are those of before or settled. -/
theorem Ended.page {p : Page AccessToken RefreshTokenText} (h : Ended s rt)
    (hstore : p.store = clearTokens)
    (hrefreshes : ∀ x ∈ p.refreshes, x ∈ s.page.refreshes ∨ x.token = none ∨ x.token = some rt) :
    Ended { s with page := p } rt := by
  refine ⟨hstore, h.undisturbed.handled, h.undisturbed.first, fun x hx rt' hrt => ?_⟩
  rcases hrefreshes x hx with hx | hnone | hsame
  · exact h.undisturbed.refreshes x hx rt' hrt
  · rw [hnone] at hrt
    cases hrt
  · rw [hsame] at hrt
    exact (Option.some.inj hrt).symm

/-- One of its refreshes has changed. -/
theorem Ended.setRefresh {p : Page AccessToken RefreshTokenText} {i : Nat}
    {y : Refresh RefreshTokenText} (h : Ended s rt) (hstore : p.store = clearTokens)
    (hp : p.refreshes = s.page.refreshes.set i y) (hy : y.token = none ∨ y.token = some rt) :
    Ended { s with page := p } rt := by
  refine h.page hstore fun x hx => ?_
  rw [hp] at hx
  rcases List.mem_or_eq_of_mem_set hx with hx | rfl
  · exact Or.inl hx
  · exact Or.inr hy

/-- **The page stays without tokens**, whatever is still on its way. -/
theorem Ended.turn (hr : ReadCommitted.Reachable Unraced (.init d) s.world) (h : Ended s rt)
    {e : Turn AccessToken RefreshTokenText} (hlogin : ∀ t, e ≠ .login t)
    (hdelivers : s.delivers e = true) {p : Page AccessToken RefreshTokenText}
    (hmoves : Moves s.page e p) : Ended { s with page := p } rt := by
  cases hmoves with
  | call => exact h.page h.store fun x hx => Or.inl hx
  | join hc hstate hp => exact h.page h.store fun x hx => Or.inl hx
  | start hc hstate hp =>
    -- There is no token to post, so that the refresh fails at once.
    have hnone : s.page.store.refreshToken = none := by
      rw [h.store]
      rfl
    refine h.page ?_ fun x hx => ?_
    · unfold doRefresh
      rw [hnone]
      rfl
    · unfold doRefresh at hx
      rw [hnone] at hx
      rcases List.mem_append.mp hx with hx | hx
      · exact Or.inl hx
      · rw [List.mem_singleton.mp hx]
        exact Or.inr (Or.inl rfl)
  | answered hc hstate => exact h.page h.store fun x hx => Or.inl hx
  | @read q r rt' hx hr =>
    refine h.setRefresh h.store rfl (Or.inr ?_)
    rw [← h.undisturbed.refreshes _ (List.mem_of_getElem? hx) rt' rfl]
    rfl
  | refuse hx hr => exact h.setRefresh rfl rfl (Or.inl rfl)
  | @renew q rt' t hx =>
    -- The server has not renewed the token, so that it has not sent a body either.
    have hsame := h.undisturbed.refreshes _ (List.mem_of_getElem? hx) rt' rfl
    simp only [delivers, hx, hsame] at hdelivers
    rw [not_renewed hr h.undisturbed.first] at hdelivers
    cases hdelivers
  | garbled hx => exact h.setRefresh rfl rfl (Or.inl rfl)
  | release hc hstate hx => exact h.page h.store fun x hx => Or.inl hx
  | follow hc hstate hx => exact h.page h.store fun x hx => Or.inl hx
  | retry hc hstate => exact h.page h.store fun x hx => Or.inl hx
  | giveUp hc hstate => exact h.page h.store fun x hx => Or.inl hx
  | login => exact absurd rfl (hlogin _)
  | logout =>
    have hnone : s.page.store.refreshToken = none := by
      rw [h.store]
      rfl
    refine h.page ?_ fun x hx => Or.inl ?_
    · unfold useLogout
      rw [hnone]
      exact h.store
    · unfold useLogout at hx
      rw [hnone] at hx
      exact hx
  | leave hl hsettled hdone => exact h.page rfl fun x hx => Or.inl hx

/-- The token of the logout is revoked. -/
theorem Ended.revoked (hr : ReadCommitted.Reachable Unraced (.init d) s.world) (h : Ended s rt)
    {c : RefreshTokenClaims} (hc : rt = .signed c) :
    ∃ x, s.world.db.refreshTokens.find c.jti = some x ∧ x.isRevoked = true := by
  subst hc
  obtain ⟨x, hx, c', hc', hhandled⟩ := h.undisturbed.handled
  cases hc'
  obtain ⟨i, hi⟩ := List.mem_iff_getElem?.mp hx
  exact revoked_of_handled hr hi hhandled

/-- A step of the server takes nothing back. -/
theorem Ended.serve (hr : ReadCommitted.Reachable Unraced (.init d) s.world) (h : Ended s rt)
    {a : Action server} {w : World server} (hstep : s.world.step a = some w) :
    Ended { s with world := w } rt := by
  refine ⟨h.store, ?_, fun c hc => ?_, h.undisturbed.refreshes⟩
  · obtain ⟨x, hx, c, hc, hhandled⟩ := h.undisturbed.handled
    obtain ⟨i, hi⟩ := List.mem_iff_getElem?.mp hx
    obtain ⟨a, hp⟩ := hhandled.returned
    exact ⟨x, List.mem_of_getElem? (World.returned_stays hi hp hstep), c, hc, hhandled⟩
  · exact unused_step hr (h.revoked hr hc) (h.undisturbed.first c hc) hstep

theorem ended_step (hr : ReadCommitted.Reachable Unraced (.init d) s.world) (h : Ended s rt)
    {e : Act} (hlogin : NoLogin s e) (hstep : s.step e = some s') : Ended s' rt := by
  cases e with
  | page e =>
    obtain ⟨hdelivers, p, hp, rfl⟩ := step_page hstep
    refine h.turn hr (fun t ht => hlogin t ?_) hdelivers (moves_of_step hp)
    rw [ht]
  | world a =>
    obtain ⟨w, hw, rfl⟩ := step_world hstep
    exact h.serve hr hw

/-- What has ended stays so until the next login. -/
theorem ended_of_reachable {t : System} (h : Reachable Fair (load store d) s) (hended : Ended s rt)
    (ht : Reachable (fun s e => Fair s e ∧ NoLogin s e) s t) :
    Reachable Fair (load store d) t ∧ Ended t rt := by
  induction ht with
  | start => exact ⟨h, hended⟩
  | @tail t t' e _ hc hstep ih =>
    have hworld := reachable_world (fun _ _ h => h) ih.1
    exact ⟨ih.1.tail hc.1 hstep, ended_step hworld ih.2 hc.2 hstep⟩

/-- A session is over when its logout was handled first and no token has come since. -/
theorem loggedOut_of_ended (hr : ReadCommitted.Reachable Unraced (.init d) s.world)
    (h : Ended s rt) : LoggedOut s rt := by
  refine ⟨h.store, fun c a b x hc ha hb hx => ?_⟩
  obtain ⟨z, hz, hrev⟩ :=
    revoked_of_unused (fun _ _ h => h) hr (h.revoked hr hc) (h.undisturbed.first c hc) ha hb
  cases hz.symm.trans hx
  exact hrev

/--
**An undisturbed logout ends its session for good.** From the moment on at which
it is settled, and until the next login, the page has no tokens and every token
of the session is revoked, whatever was in flight when it started.
-/
theorem loggedOut_of_undisturbed {t : System} {e : Act} (h : Reachable Fair (load store d) s)
    (hsettles : Settles s e rt) (hclean : Undisturbed s rt) (hstep : s.step e = some s')
    (ht : Reachable (fun s e => Fair s e ∧ NoLogin s e) s' t) : LoggedOut t rt := by
  obtain ⟨j, l, i, rfl, _, _⟩ := hsettles
  have hended : Ended s' rt := by
    obtain ⟨_, p, hp, rfl⟩ := step_page hstep
    cases moves_of_step hp with
    | leave => exact ⟨rfl, hclean.handled, hclean.first, hclean.refreshes⟩
  have hfair : Fair s (.page (.settleLogout j)) := trivial
  obtain ⟨hreach, hstays⟩ := ended_of_reachable (h.tail hfair hstep) hended ht
  exact loggedOut_of_ended (reachable_world (fun _ _ h => h) hreach) hstays

end

/-! ## Two runs -/

/-- No call of the server looks its token up while another one is between its lookup and its end. -/
def inTurn (s : System) : Act → Bool
  | .page _ => true
  | .world a => ExpenseSaas.inTurn s.world a

/-- Nobody logs in on the page. -/
def noLogin : Act → Bool
  | .page (.login _) => false
  | _ => true

theorem reachable_of_run {C : System → Act → Prop} {c : System → Act → Bool}
    (hc : ∀ s e, c s e = true → C s e) {s₀ s s' : System} {es : List Act}
    (h : s.run c es = some s') (hs : Reachable C s₀ s) : Reachable C s₀ s' :=
  Replay.run_rule (fun hs he hstep => hs.tail (hc _ _ he) hstep) h hs

theorem fair_of_inTurn {s : System} {e : Act} (h : s.inTurn e = true) : Fair s e := by
  cases e with
  | page e => trivial
  | world a => exact unraced_of_inTurn h

/-- The answer tells of a failure. -/
def faulty : Event Command Command.Resp → Bool
  | ⟨.begin, .error _⟩ => true
  | ⟨.commit, .error _⟩ => true
  | ⟨.commit, .ok false⟩ => true
  | ⟨.sql _, .error _⟩ => true
  | ⟨.ext .acquire, .error _⟩ => true
  | ⟨.ext .salt, .error _⟩ => true
  | ⟨.ext .sign, .error _⟩ => true
  | _ => false

theorem faulty_of_fault {ev : Event Command Command.Resp} (h : Fault ev) : faulty ev = true := by
  cases h <;> rfl

/-- The step settles the first logout, and it has sent this token. -/
def firstSent (s : System) (rt : RefreshTokenText) : Bool :=
  s.page.logouts[0]?.any fun l => l.sent.any fun q => q.1 = rt

theorem settles_of_firstSent {s : System} {rt : RefreshTokenText} (h : s.firstSent rt = true) :
    Settles s (.page (.settleLogout 0)) rt := by
  obtain ⟨l, hl, hsent⟩ := (Option.any_eq_true _ _).mp h
  obtain ⟨q, hq, hrt⟩ := (Option.any_eq_true _ _).mp hsent
  refine ⟨0, l, q.2, rfl, hl, ?_⟩
  rw [hq, ← of_decide_eq_true hrt]

/-- The server has accepted the logout, nothing has failed, and no other token is being refreshed. -/
def clean (s : System) (rt : RefreshTokenText) : Bool :=
  s.accepted rt && s.world.sessions.all (fun x => x.trace.all fun ev => !faulty ev) &&
    s.page.refreshes.all fun x => x.token.all fun rt' => rt' = rt

theorem undisturbed_of_clean {s : System} {d : Database} {c : RefreshTokenClaims}
    (h : ReadCommitted.Reachable Unraced (.init d) s.world) (hclean : s.clean (.signed c) = true) :
    Undisturbed s (.signed c) := by
  unfold clean at hclean
  simp only [Bool.and_eq_true] at hclean
  obtain ⟨⟨hacc, hsound⟩, hrefreshes⟩ := hclean
  unfold accepted at hacc
  obtain ⟨x, hx, hok⟩ := List.any_eq_true.mp hacc
  obtain ⟨i, hi⟩ := List.mem_iff_getElem?.mp hx
  split at hok
  · rename_i t p hcall hp
    obtain rfl := of_decide_eq_true hok
    obtain ⟨y, hy, _⟩ := (consuming_of_succeeded h hi hp (Or.inr hcall)).1.1
    refine ⟨⟨x, hx, c, rfl, hcall, ⟨_, hp⟩, ⟨y, hy⟩, fun ev hev hfault => ?_⟩, fun c' hc => ?_, fun z hz rt' hrt => ?_⟩
    · have hnot := List.all_eq_true.mp (List.all_eq_true.mp hsound x hx) ev hev
      rw [faulty_of_fault hfault] at hnot
      cases hnot
    · cases hc
      exact unused_of_succeeded (fun _ _ h => h) h hi hcall hp
    · have hsame := List.all_eq_true.mp hrefreshes z hz
      exact of_decide_eq_true ((Option.all_eq_true _ _).mp hsame rt' hrt)
  · cases hok

/-- The owner is logged in. -/
def Sample.owned : System :=
  load ⟨some ⟨20, 10, .member, 40, 0⟩, some (.signed Sample.claims)⟩ Sample.database

/--
A call is answered with 401 and starts a refresh, and the owner logs out, while
somebody else logs in. The logout reaches the table of tokens first.
-/
def Sample.crowded : List Act :=
  [.page (.call Page.Sample.reports), .page (.answer 0 (.status 401)), .page .logout,
    .world (.start (.refreshToken (.signed Sample.claims))),
    .world (.start (.login "approver@example" "old")),
    .world (.start (.logout (.signed Sample.claims)))] ++
  (turns 0 3 100 ++ turns 1 10 110 ++ turns 2 6 120 ++ turns 1 6 130 ++ turns 2 5 140).map Act.world ++
  [.page (.answer 1 (.status 200))]

/-- The logout being settled, the login and the refresh go on to their ends. -/
def Sample.emptied : List Act :=
  (turns 1 6 150 ++ turns 0 7 160).map Act.world ++
  [.page (.refreshAnswer 0 (.status 401)), .page (.resume 0), .page (.proceed 0)]

/-- Everything has returned. -/
def allReturned (s : System) : Bool :=
  s.page.calls.all (fun c => c.state = .returned) && s.page.refreshes.all (fun x => !x.pending) &&
    s.page.logouts.all Logout.settled && s.world.sessions.all fun x => match x.prog with
      | .ret _ => true
      | _ => false

theorem quiet_of_allReturned {s : System} (h : s.allReturned = true) : Quiet s := by
  unfold allReturned at h
  simp only [Bool.and_eq_true, List.all_eq_true, decide_eq_true_eq, Bool.not_eq_true'] at h
  obtain ⟨⟨⟨hcalls, hrefreshes⟩, hlogouts⟩, hsessions⟩ := h
  refine ⟨hcalls, hrefreshes, hlogouts, fun x hx => ?_⟩
  have hret := hsessions x hx
  split at hret
  · rename_i a hp
    exact ⟨a, hp⟩
  · cases hret

/-- A call and its refresh are in flight. -/
def inFlight (s : System) : Bool :=
  s.page.calls.any (fun c => c.state ≠ .returned) && s.page.refreshes.any Refresh.pending

/--
The logout is settled while a call and its refresh are in flight and another session
begins. When everything has returned the session of the owner is over, and the other
one is not.
-/
theorem loggedOut_of_crowded : ∃ s s' t : System, Reachable Fair Sample.owned s ∧ s.inFlight = true ∧
    Settles s (.page (.settleLogout 0)) (.signed Sample.claims) ∧
    Undisturbed s (.signed Sample.claims) ∧ s.step (.page (.settleLogout 0)) = some s' ∧
    Reachable (fun s e => Fair s e ∧ NoLogin s e) s' t ∧ Quiet t ∧
    (∃ x, t.world.db.refreshTokens.find 134 = some x ∧ x.isRevoked = false) ∧
    LoggedOut t (.signed Sample.claims) := by
  have hrun : (Sample.owned.run inTurn Sample.crowded).any (fun s =>
      s.inFlight && s.firstSent (.signed Sample.claims) && s.clean (.signed Sample.claims) &&
        (s.step (.page (.settleLogout 0))).any fun s' =>
          (s'.run (fun s e => inTurn s e && noLogin e) Sample.emptied).any fun t =>
            t.allReturned && (t.world.db.refreshTokens.find 134).any fun x => !x.isRevoked) = true := by
    decide +kernel
  obtain ⟨s, hs, hok⟩ := (Option.any_eq_true _ _).mp hrun
  simp only [Bool.and_eq_true] at hok
  obtain ⟨⟨⟨hflight, hsent⟩, hclean⟩, hok⟩ := hok
  obtain ⟨s', hs', hok⟩ := (Option.any_eq_true _ _).mp hok
  obtain ⟨t, ht, hok⟩ := (Option.any_eq_true _ _).mp hok
  obtain ⟨hquiet, hlive⟩ := (Bool.and_eq_true _ _).mp hok
  obtain ⟨x, hx, hnot⟩ := (Option.any_eq_true _ _).mp hlive
  have hreach : Reachable Fair Sample.owned s := reachable_of_run (fun _ _ h => fair_of_inTurn h) hs .start
  have hrest : Reachable (fun s e => Fair s e ∧ NoLogin s e) s' t := by
    refine reachable_of_run (fun s e h => ?_) ht .start
    obtain ⟨hturn, hnone⟩ := (Bool.and_eq_true _ _).mp h
    refine ⟨fair_of_inTurn hturn, ?_⟩
    rintro _ rfl
    cases hnone
  have hsettles := settles_of_firstSent hsent
  have hundisturbed := undisturbed_of_clean (reachable_world (fun _ _ h => h) hreach) hclean
  exact ⟨s, s', t, hreach, hflight, hsettles, hundisturbed, hs', hrest, quiet_of_allReturned hquiet,
    ⟨x, hx, by simpa using hnot⟩, loggedOut_of_undisturbed hreach hsettles hundisturbed hs' hrest⟩

/-- The refresh token of this name is among those stored. -/
def storedIn (tr : Trace) (jti : UUID) : Bool :=
  tr.any fun ev => match ev with
    | ⟨.sql (.createRefreshToken k _ _ _), .ok _⟩ => k = jti
    | _ => false

theorem stored_of_storedIn {tr : Trace} {jti : UUID} (h : storedIn tr jti = true) :
    Stored tr jti := by
  unfold storedIn at h
  obtain ⟨ev, hev, hk⟩ := List.any_eq_true.mp h
  split at hk
  · rename_i k u digest expiresAt row
    rw [of_decide_eq_true hk] at hev
    exact ⟨u, digest, expiresAt, row, hev⟩
  · cases hk

/-- The tokens the owner gets for the old ones. -/
def Sample.renewed : AuthTokens AccessToken RefreshTokenText :=
  ⟨⟨20, 10, .member, 120, 0⟩, .signed ⟨20, 123, 0, 604800000000⟩⟩

/--
A call is answered with 401 and starts a refresh, and the owner logs out. The
refresh reaches the server first.
-/
def Sample.overtaken : List Act :=
  [.page (.call Page.Sample.reports), .page (.answer 0 (.status 401)), .page .logout,
    .world (.start (.refreshToken (.signed Sample.claims)))] ++ (turns 0 31 100).map Act.world ++
  [.world (.start (.logout (.signed Sample.claims)))] ++ (turns 1 6 200).map Act.world ++
  [.page (.answer 1 (.status 401)), .page (.refreshAnswer 0 (.status 200)),
    .page (.refreshBody 0 (some Sample.renewed)), .page (.resume 0), .page (.resume 1),
    .page (.proceed 0), .page (.proceed 1), .page (.answer 0 (.status 200)),
    .world (.start (.logout (.signed Sample.claims)))] ++ (turns 2 6 300).map Act.world ++
  [.page (.answer 1 (.status 401))]

/-- The first call of the server is a refresh with the owner's token, and has stored this one. -/
def yieldsTo (s : System) (jti : UUID) : Bool :=
  s.world.sessions[0]?.any fun x => storedIn x.trace jti && match x.call with
    | .refreshToken t => t = .signed Sample.claims
    | _ => false

theorem yields_of_yieldsTo {s : System} {jti : UUID} (h : s.yieldsTo jti = true) :
    Yields s.world Sample.claims.jti jti := by
  obtain ⟨x, hx, hok⟩ := (Option.any_eq_true _ _).mp h
  obtain ⟨hstored, hcall⟩ := (Bool.and_eq_true _ _).mp hok
  split at hcall
  · rename_i t ht
    rw [of_decide_eq_true hcall] at ht
    exact ⟨0, x, Sample.claims, hx, ht, rfl, stored_of_storedIn hstored⟩
  · cases hcall

/--
**A logout that is overtaken does not end the session.** Every request was
answered and nothing has failed, the logout is settled and nothing is under way,
and the token that the refresh has issued is live.
-/
theorem not_loggedOut_of_overtaken : ∃ s s' : System,
    Reachable (fun _ _ => True) Sample.owned s ∧
    Settles s (.page (.settleLogout 0)) (.signed Sample.claims) ∧
    s.step (.page (.settleLogout 0)) = some s' ∧ Quiet s' ∧
    ¬ LoggedOut s' (.signed Sample.claims) := by
  have hrun : (Sample.owned.run (fun _ _ => true) Sample.overtaken).any (fun s =>
      s.firstSent (.signed Sample.claims) && (s.step (.page (.settleLogout 0))).any fun s' =>
        s'.allReturned && s'.yieldsTo 123 &&
          (s'.world.db.refreshTokens.find 123).any fun x => !x.isRevoked) = true := by
    decide +kernel
  obtain ⟨s, hs, hok⟩ := (Option.any_eq_true _ _).mp hrun
  obtain ⟨hsent, hok⟩ := (Bool.and_eq_true _ _).mp hok
  obtain ⟨s', hs', hok⟩ := (Option.any_eq_true _ _).mp hok
  simp only [Bool.and_eq_true] at hok
  obtain ⟨⟨hquiet, hyields⟩, hlive⟩ := hok
  obtain ⟨x, hx, hnot⟩ := (Option.any_eq_true _ _).mp hlive
  refine ⟨s, s', reachable_of_run (fun _ _ _ => trivial) hs .start, settles_of_firstSent hsent, hs',
    quiet_of_allReturned hquiet, fun hout => ?_⟩
  have hrev := hout.revoked Sample.claims Sample.claims.jti 123 x rfl .refl
    (.single (yields_of_yieldsTo hyields)) hx
  rw [hrev] at hnot
  cases hnot

end System

end Frontend

end ExpenseSaas
