import ExpenseSaas.Frontend.Client
import ExpenseSaas.Basic
import Mathlib.Data.List.Nodup

/-!
# One refresh at a time

The call that has started a refresh is the only one that clears `refreshPromise`,
and it does so after the refresh is settled. So while a refresh is pending the
promise is that one (`Flight`), and a new one is started only when none is. A
settled refresh leaves a token in the store that is new, or none, so that the one
in the store has not been posted unless a refresh with it is pending (`Unposted`).
-/

namespace ExpenseSaas

namespace Frontend

namespace Page

variable {A R : Type} {s s' : Page A R} {e : Turn A R}

/-! ## What a turn does -/

/-- The turns, one by one. -/
inductive Moves (s : Page A R) : Turn A R → Page A R → Prop where
  | call {path} : Moves s (.call path) (s.apiClient path)
  | join {i r c p} (hc : s.calls[i]? = some c) (hstate : c.state = .fetching)
      (hp : s.refreshPromise = some p) :
      Moves s (.answer i r) (s.setCall i { c with state := .joining p, awaited := some p })
  | start {i r c} (hc : s.calls[i]? = some c) (hstate : c.state = .fetching)
      (hp : s.refreshPromise = none) :
      Moves s (.answer i r) ({ s.doRefresh with refreshPromise := some s.refreshes.length }.setCall i
        { c with state := .starting s.refreshes.length, awaited := some s.refreshes.length })
  | answered {i r c} (hc : s.calls[i]? = some c)
      (hstate : c.state = .fetching ∨ c.state = .retrying) :
      Moves s (.answer i r) (s.setCall i { c with state := .returned })
  | read {p r rt} (hx : s.refreshes[p]? = some (.posted rt)) (hr : r.ok = true) :
      Moves s (.refreshAnswer p r) { s with refreshes := s.refreshes.set p (.reading rt) }
  | refuse {p r rt} (hx : s.refreshes[p]? = some (.posted rt)) (hr : r.ok = false) :
      Moves s (.refreshAnswer p r) (s.settle p false clearTokens)
  | renew {p rt t} (hx : s.refreshes[p]? = some (.reading rt)) :
      Moves s (.refreshBody p (some t))
        { s.settle p true (setTokens t) with received := s.received ++ [t.refreshToken] }
  | garbled {p rt} (hx : s.refreshes[p]? = some (.reading rt)) :
      Moves s (.refreshBody p none) (s.settle p false clearTokens)
  | release {i c p ok} (hc : s.calls[i]? = some c) (hstate : c.state = .starting p)
      (hx : s.refreshes[p]? = some (.settled ok)) :
      Moves s (.resume i) { s.setCall i { c with state := .refreshed ok } with refreshPromise := none }
  | follow {i c p ok} (hc : s.calls[i]? = some c) (hstate : c.state = .joining p)
      (hx : s.refreshes[p]? = some (.settled ok)) :
      Moves s (.resume i) (s.setCall i { c with state := .refreshed ok })
  | retry {i c} (hc : s.calls[i]? = some c) (hstate : c.state = .refreshed true) :
      Moves s (.proceed i) (s.setCall i { c with state := .retrying, fetches := c.fetches + 1 })
  | giveUp {i c} (hc : s.calls[i]? = some c) (hstate : c.state = .refreshed false) :
      Moves s (.proceed i) (s.setCall i { c with state := .returned })
  | login {t} : Moves s (.login t)
      { s with store := setTokens t, received := s.received ++ [t.refreshToken] }
  | logout : Moves s .logout s.useLogout
  | leave {j l} (hl : s.logouts[j]? = some l) (hsettled : l.settled = false)
      (hdone : s.logoutDone l = true) : Moves s (.settleLogout j)
        { s with store := clearTokens, logouts := s.logouts.set j { l with settled := true } }

/-- A fetch is answered. -/
theorem moves_of_answer {i : Nat} {r : Response} (h : s.step (.answer i r) = some s') :
    Moves s (.answer i r) s' := by
  simp only [step, Option.bind_eq_bind, Option.bind_eq_some_iff] at h
  obtain ⟨c, hc, h⟩ := h
  cases hstate : c.state with
  | fetching =>
    simp only [hstate, Option.some.injEq] at h
    subst h
    unfold fetched
    split
    · unfold refreshAccessToken
      cases hp : s.refreshPromise with
      | none => exact .start hc hstate hp
      | some p => exact .join hc hstate hp
    · exact .answered hc (.inl hstate)
  | retrying =>
    simp only [hstate, Option.some.injEq] at h
    subst h
    exact .answered hc (.inr hstate)
  | _ => simp [hstate] at h

/-- The status of a refresh arrives. -/
theorem moves_of_refreshAnswer {p : Nat} {r : Response} (h : s.step (.refreshAnswer p r) = some s') :
    Moves s (.refreshAnswer p r) s' := by
  simp only [step, Option.bind_eq_bind, Option.bind_eq_some_iff] at h
  obtain ⟨x, hx, h⟩ := h
  cases x with
  | posted rt =>
    cases hr : r.ok with
    | true =>
      simp only [hr, if_true, Option.some.injEq] at h
      subst h
      exact .read hx hr
    | false =>
      simp only [hr, Bool.false_eq_true, if_false, Option.some.injEq] at h
      subst h
      exact .refuse hx hr
  | reading rt => cases h
  | settled ok => cases h

/-- A call that has waited for a refresh hears of its end. -/
theorem moves_of_resume {i : Nat} (h : s.step (.resume i) = some s') : Moves s (.resume i) s' := by
  simp only [step, Option.bind_eq_bind, Option.bind_eq_some_iff] at h
  obtain ⟨c, hc, h⟩ := h
  cases hstate : c.state with
  | starting p =>
    simp only [hstate, Option.bind_eq_some_iff] at h
    obtain ⟨x, hx, h⟩ := h
    cases x with
    | settled ok =>
      cases h
      exact .release hc hstate hx
    | posted rt => cases h
    | reading rt => cases h
  | joining p =>
    simp only [hstate, Option.bind_eq_some_iff] at h
    obtain ⟨x, hx, h⟩ := h
    cases x with
    | settled ok =>
      cases h
      exact .follow hc hstate hx
    | posted rt => cases h
    | reading rt => cases h
  | _ => simp [hstate] at h

/-- It goes on. -/
theorem moves_of_proceed {i : Nat} (h : s.step (.proceed i) = some s') : Moves s (.proceed i) s' := by
  simp only [step, Option.bind_eq_bind, Option.bind_eq_some_iff] at h
  obtain ⟨c, hc, h⟩ := h
  cases hstate : c.state with
  | refreshed ok =>
    cases ok with
    | true =>
      simp only [hstate, Option.some.injEq] at h
      subst h
      exact .retry hc hstate
    | false =>
      simp only [hstate, Option.some.injEq] at h
      subst h
      exact .giveUp hc hstate
  | _ => simp [hstate] at h

/-- **These are all the turns there are.** -/
theorem moves_of_step (h : s.step e = some s') : Moves s e s' := by
  cases e with
  | call path =>
    cases h
    exact .call
  | answer i r => exact moves_of_answer h
  | refreshAnswer p r => exact moves_of_refreshAnswer h
  | refreshBody p body =>
    simp only [step, Option.bind_eq_bind, Option.bind_eq_some_iff] at h
    obtain ⟨x, hx, h⟩ := h
    cases x with
    | posted rt => cases h
    | settled ok => cases h
    | reading rt =>
      cases body with
      | none =>
        cases h
        exact .garbled hx
      | some t =>
        cases h
        exact .renew hx
  | resume i => exact moves_of_resume h
  | proceed i => exact moves_of_proceed h
  | login t =>
    cases h
    exact .login
  | logout =>
    cases h
    exact .logout
  | settleLogout j =>
    simp only [step, Option.bind_eq_bind, Option.bind_eq_some_iff] at h
    obtain ⟨l, hl, h⟩ := h
    split at h
    · rename_i hcond
      cases h
      rw [Bool.and_eq_true, Bool.not_eq_true'] at hcond
      exact .leave hl hcond.1 hcond.2
    · cases h

/-! ## The invariant -/

/-- A refresh that is not settled is the one everybody waits for. -/
structure Flight (s : Page A R) : Prop where
  pending : ∀ (p : Nat) (x : Refresh R), s.refreshes[p]? = some x → x.pending = true → s.refreshPromise = some p
  starting : ∀ (i : Nat) (c : ApiCall) (p : Nat), s.calls[i]? = some c → c.state = .starting p → s.refreshPromise = some p
  one : ∀ (i j : Nat) (c d : ApiCall) (p q : Nat), s.calls[i]? = some c → s.calls[j]? = some d →
    c.state = .starting p → d.state = .starting q → i = j

/-- Unless a refresh is pending, the token of the store has not been posted. -/
structure Unposted (s : Page A R) : Prop where
  posts : ∀ r ∈ s.posts, r ∈ s.received
  store : ∀ r, s.store.refreshToken = some r → r ∈ s.received
  nodup : s.posts.Nodup
  fresh : ∀ r, s.store.refreshToken = some r → r ∈ s.posts →
    ∃ (p : Nat) (x : Refresh R), s.refreshes[p]? = some x ∧ x.pending = true

/-- The refresh a call has waited for has ended so. -/
def Awaited (rs : List (Refresh R)) (c : ApiCall) (ok : Bool) : Prop :=
  ∃ p : Nat, c.awaited = some p ∧ rs[p]? = some (.settled ok)

/-- The fetches of a call, by where it is. -/
def CallOk (rs : List (Refresh R)) (c : ApiCall) : Prop :=
  match c.state with
  | .fetching => c.fetches = 1
  | .starting p => c.fetches = 1 ∧ c.awaited = some p
  | .joining p => c.fetches = 1 ∧ c.awaited = some p
  | .refreshed ok => c.fetches = 1 ∧ Awaited rs c ok
  | .retrying => c.fetches = 2 ∧ Awaited rs c true
  | .returned => c.fetches = 1 ∨ c.fetches = 2 ∧ Awaited rs c true

/-- The fetches of all calls. -/
def CallsOk (s : Page A R) : Prop := ∀ (i : Nat) (c : ApiCall), s.calls[i]? = some c → CallOk s.refreshes c

structure Sound (s : Page A R) : Prop where
  flight : Flight s
  unposted : Unposted s
  calls : CallsOk s

theorem sound_load {store : AuthStore A R} : Sound (load store) where
  flight := ⟨fun _ _ h => by simp [load] at h, fun _ _ _ h => by simp [load] at h,
    fun _ _ _ _ _ _ h => by simp [load] at h⟩
  unposted := ⟨fun _ h => by simp [load] at h, fun _ h => Option.mem_toList.mpr h, .nil,
    fun _ _ h => by simp [load] at h⟩
  calls _ _ h := by simp [load] at h

/-! ## Every turn keeps it -/

/-- A refresh that was settled still is, in the same way. -/
def Later (rs rs' : List (Refresh R)) : Prop :=
  ∀ (p : Nat) (ok : Bool), rs[p]? = some (.settled ok) → rs'[p]? = some (.settled ok)

theorem later_refl {rs : List (Refresh R)} : Later rs rs := fun _ _ h => h

theorem later_concat {rs : List (Refresh R)} {x : Refresh R} : Later rs (rs ++ [x]) := by
  intro p ok h
  rw [List.getElem?_append_left (List.getElem?_eq_some_iff.mp h).1]
  exact h

/-- Only a refresh that was pending has changed. -/
theorem later_set {rs : List (Refresh R)} {p : Nat} {x y : Refresh R} (hx : rs[p]? = some x)
    (hpending : x.pending = true) : Later rs (rs.set p y) := by
  intro q ok h
  by_cases hqp : p = q
  · subst hqp
    cases hx.symm.trans h
    cases hpending
  · rw [List.getElem?_set_ne hqp]
    exact h

theorem Awaited.later {rs rs' : List (Refresh R)} {c : ApiCall} {ok : Bool} (h : Awaited rs c ok)
    (hrs : Later rs rs') : Awaited rs' c ok := by
  obtain ⟨p, hp, hx⟩ := h
  exact ⟨p, hp, hrs p ok hx⟩

theorem CallOk.later {rs rs' : List (Refresh R)} {c : ApiCall} (h : CallOk rs c)
    (hrs : Later rs rs') : CallOk rs' c := by
  unfold CallOk at h ⊢
  cases hstate : c.state with
  | fetching | starting | joining =>
    rw [hstate] at h
    exact h
  | refreshed ok =>
    rw [hstate] at h
    exact ⟨h.1, h.2.later hrs⟩
  | retrying =>
    rw [hstate] at h
    exact ⟨h.1, h.2.later hrs⟩
  | returned =>
    rw [hstate] at h
    exact h.imp_right fun h => ⟨h.1, h.2.later hrs⟩

/-- Turns that start no refresh and end none that somebody waits for. -/
theorem Flight.mono (h : Flight s) (hpromise : s'.refreshPromise = s.refreshPromise)
    (hpending : ∀ (p : Nat) (x : Refresh R), s'.refreshes[p]? = some x → x.pending = true →
      ∃ y, s.refreshes[p]? = some y ∧ y.pending = true)
    (hcalls : ∀ (i : Nat) (c : ApiCall) (p : Nat), s'.calls[i]? = some c → c.state = .starting p →
      ∃ d, s.calls[i]? = some d ∧ d.state = .starting p) : Flight s' where
  pending p x hx hp := by
    obtain ⟨y, hy, hyp⟩ := hpending p x hx hp
    exact hpromise.trans (h.pending p y hy hyp)
  starting i c p hc hstate := by
    obtain ⟨d, hd, hdstate⟩ := hcalls i c p hc hstate
    exact hpromise.trans (h.starting i d p hd hdstate)
  one i j c d p q hc hd hp hq := by
    obtain ⟨c', hc', hp'⟩ := hcalls i c p hc hp
    obtain ⟨d', hd', hq'⟩ := hcalls j d q hd hq
    exact h.one i j c' d' p q hc' hd' hp' hq'

/-- A call goes on, and starts no refresh. -/
theorem Flight.setCall {i : Nat} {c : ApiCall} (h : Flight s) (hc : ∀ p, c.state ≠ .starting p) :
    Flight (s.setCall i c) := by
  refine h.mono rfl (fun p x hx hp => ⟨x, hx, hp⟩) fun j d p hd hstate => ?_
  rcases List.getElem?_of_set hd with ⟨_, rfl⟩ | ⟨_, hd⟩
  · exact absurd hstate (hc p)
  · exact ⟨d, hd, hstate⟩

/-- A refresh goes on, or is settled. -/
theorem Flight.setRefresh {p : Nat} {x y : Refresh R} (h : Flight s) (hx : s.refreshes[p]? = some x)
    (hpending : x.pending = true) (hs' : s'.refreshes = s.refreshes.set p y)
    (hpromise : s'.refreshPromise = s.refreshPromise) (hcalls : s'.calls = s.calls) : Flight s' := by
  refine h.mono hpromise (fun q z hz hzp => ?_) fun i c q hc hstate => ⟨c, hcalls ▸ hc, hstate⟩
  rw [hs'] at hz
  rcases List.getElem?_of_set hz with ⟨rfl, _⟩ | ⟨_, hz⟩
  · exact ⟨x, hx, hpending⟩
  · exact ⟨z, hz, hzp⟩

/-- A call is added. -/
theorem Flight.addCall {path : ApiPath} (h : Flight s) : Flight (s.apiClient path) := by
  refine h.mono rfl (fun p x hx hp => ⟨x, hx, hp⟩) fun i c p hc hstate => ?_
  rcases List.getElem?_of_concat hc with ⟨_, rfl⟩ | hc
  · cases hstate
  · exact ⟨c, hc, hstate⟩

theorem doRefresh_calls : s.doRefresh.calls = s.calls := by
  unfold doRefresh
  cases s.store.refreshToken <;> rfl

theorem doRefresh_refreshes : ∃ x, s.doRefresh.refreshes = s.refreshes ++ [x] := by
  unfold doRefresh
  cases s.store.refreshToken with
  | none => exact ⟨.settled false, rfl⟩
  | some rt => exact ⟨.posted rt, rfl⟩

/-- A refresh is started, there being no promise: nothing was pending before. -/
theorem Flight.start {i : Nat} {c : ApiCall} (h : Flight s) (hp : s.refreshPromise = none)
    (hstate : c.state = .starting s.refreshes.length) :
    Flight ({ s.doRefresh with refreshPromise := some s.refreshes.length }.setCall i c) where
  pending p x hx hpending := by
    obtain ⟨y, hy⟩ := doRefresh_refreshes (s := s)
    have hx' : (s.refreshes ++ [y])[p]? = some x := hy ▸ hx
    rcases List.getElem?_of_concat hx' with ⟨hlen, _⟩ | hold
    · exact congrArg some hlen.symm
    · have hsome := h.pending p x hold hpending
      rw [hp] at hsome
      cases hsome
  starting j d p hd hdstate := by
    rcases List.getElem?_of_set hd with ⟨_, rfl⟩ | ⟨_, hold⟩
    · rw [hstate] at hdstate
      cases hdstate
      rfl
    · have hsome := h.starting j d p (doRefresh_calls (s := s) ▸ hold) hdstate
      rw [hp] at hsome
      cases hsome
  one j k d d' p q hd hd' hdp hdq := by
    -- no call was starting a refresh before, so both are this one
    have hall : ∀ (j : Nat) (d : ApiCall) (p : Nat),
        (s.doRefresh.calls.set i c)[j]? = some d → d.state = .starting p → j = i := by
      intro j d p hd hdp
      rcases List.getElem?_of_set hd with ⟨hj, _⟩ | ⟨_, hold⟩
      · exact hj
      · have hsome := h.starting j d p (doRefresh_calls (s := s) ▸ hold) hdp
        rw [hp] at hsome
        cases hsome
    rw [hall j d p hd hdp, hall k d' q hd' hdq]

/-- The call that has started the refresh clears the promise; the refresh is settled. -/
theorem Flight.release {i p : Nat} {c d : ApiCall} {ok : Bool} (h : Flight s)
    (hc : s.calls[i]? = some c) (hstate : c.state = .starting p)
    (hx : s.refreshes[p]? = some (.settled ok)) (hd : ∀ q, d.state ≠ .starting q) :
    Flight { s.setCall i d with refreshPromise := none } := by
  have hpromise := h.starting i c p hc hstate
  have hnone : ∀ (j : Nat) (b : ApiCall) (q : Nat),
      (s.calls.set i d)[j]? = some b → b.state = .starting q → False := by
    intro j b q hb hbstate
    rcases List.getElem?_of_set hb with ⟨_, rfl⟩ | ⟨hji, hold⟩
    · exact hd q hbstate
    · exact hji (h.one j i b c q p hold hc hbstate hstate)
  refine ⟨fun q x hq hpending => ?_, fun j b q hb hbstate => (hnone j b q hb hbstate).elim,
    fun j _ b _ q _ hb _ hbstate _ => (hnone j b q hb hbstate).elim⟩
  have hqp := h.pending q x hq hpending
  rw [hpromise] at hqp
  cases hqp
  cases hx.symm.trans hq
  cases hpending

/-- **The turns keep the promise that of the pending refresh.** -/
theorem flight_step (h : Flight s) (hstep : Moves s e s') : Flight s' := by
  cases hstep with
  | call => exact h.addCall
  | join hc hstate hp => exact h.setCall fun p hp => by cases hp
  | start hc hstate hp => exact h.start hp rfl
  | answered hc hstate => exact h.setCall fun p hp => by cases hp
  | read hx hr => exact h.setRefresh hx rfl rfl rfl rfl
  | refuse hx hr => exact h.setRefresh hx rfl rfl rfl rfl
  | renew hx => exact h.setRefresh hx rfl rfl rfl rfl
  | garbled hx => exact h.setRefresh hx rfl rfl rfl rfl
  | release hc hstate hx => exact h.release hc hstate hx fun q hq => by cases hq
  | follow hc hstate hx => exact h.setCall fun p hp => by cases hp
  | retry hc hstate => exact h.setCall fun p hp => by cases hp
  | giveUp hc hstate => exact h.setCall fun p hp => by cases hp
  | login => exact ⟨h.pending, h.starting, h.one⟩
  | logout =>
    unfold useLogout
    cases s.store.refreshToken with
    | none => exact ⟨h.pending, h.starting, h.one⟩
    | some rt =>
      have h' : Flight (s.apiClient logoutPath) := h.addCall
      exact ⟨h'.pending, h'.starting, h'.one⟩
  | leave hl hsettled hdone => exact ⟨h.pending, h.starting, h.one⟩

/-! ## Tokens -/

/-- Nothing of this is touched. -/
theorem Unposted.frame (h : Unposted s) (hstore : s'.store = s.store) (hposts : s'.posts = s.posts)
    (hreceived : s'.received = s.received) (hrefreshes : s'.refreshes = s.refreshes) :
    Unposted s' where
  posts := by
    rw [hposts, hreceived]
    exact h.posts
  store := by
    rw [hstore, hreceived]
    exact h.store
  nodup := by
    rw [hposts]
    exact h.nodup
  fresh := by
    rw [hstore, hposts, hrefreshes]
    exact h.fresh

/-- The tokens are forgotten. -/
theorem Unposted.clear (h : Unposted s) (hstore : s'.store = clearTokens) (hposts : s'.posts = s.posts)
    (hreceived : s'.received = s.received) : Unposted s' where
  posts := by
    rw [hposts, hreceived]
    exact h.posts
  store := by
    rw [hstore]
    intro r hr
    cases hr
  nodup := by
    rw [hposts]
    exact h.nodup
  fresh := by
    rw [hstore]
    intro r hr
    cases hr

/-- Tokens arrive that were never returned before. -/
theorem Unposted.renew {t : AuthTokens A R} (h : Unposted s) (hfresh : t.refreshToken ∉ s.received)
    (hstore : s'.store = setTokens t) (hposts : s'.posts = s.posts)
    (hreceived : s'.received = s.received ++ [t.refreshToken]) : Unposted s' where
  posts := by
    rw [hposts, hreceived]
    exact fun r hr => List.mem_append_left _ (h.posts r hr)
  store := by
    rw [hstore, hreceived]
    intro r hr
    cases hr
    exact List.mem_append_right _ (List.mem_singleton.mpr rfl)
  nodup := by
    rw [hposts]
    exact h.nodup
  fresh := by
    rw [hstore, hposts]
    intro r hr hposted
    cases hr
    exact absurd (h.posts _ hposted) hfresh

/-- The body of a pending refresh is awaited now. -/
theorem Unposted.read {p : Nat} {rt : R} (h : Unposted s) (hx : s.refreshes[p]? = some (.posted rt)) :
    Unposted { s with refreshes := s.refreshes.set p (.reading rt) } where
  posts := h.posts
  store := h.store
  nodup := h.nodup
  fresh r hr hposted := by
    obtain ⟨q, y, hy, hpending⟩ := h.fresh r hr hposted
    by_cases hpq : p = q
    · subst hpq
      exact ⟨p, .reading rt, List.getElem?_set_self (List.getElem?_eq_some_iff.mp hx).1, rfl⟩
    · exact ⟨q, y, (List.getElem?_set_ne hpq).trans hy, hpending⟩

/-- With no promise no refresh is pending, so that the token is posted for the first time. -/
theorem Unposted.doRefresh (h : Unposted s) (hflight : Flight s) (hp : s.refreshPromise = none) :
    Unposted s.doRefresh := by
  unfold Page.doRefresh
  cases hstore : s.store.refreshToken with
  | none => exact h.clear rfl rfl rfl
  | some rt =>
    have hnew : rt ∉ s.posts := by
      intro hposted
      obtain ⟨q, y, hy, hpending⟩ := h.fresh rt hstore hposted
      have hsome := hflight.pending q y hy hpending
      rw [hp] at hsome
      cases hsome
    refine ⟨fun r hr => ?_, h.store, ?_, fun r hr _ => ?_⟩
    · rcases List.mem_append.mp hr with hr | hr
      · exact h.posts r hr
      · rw [List.mem_singleton.mp hr]
        exact h.store rt hstore
    · exact h.nodup.append (List.nodup_singleton rt) (List.disjoint_singleton.mpr hnew)
    · exact ⟨s.refreshes.length, .posted rt, List.getElem?_concat_length, rfl⟩

/-- **The turns keep the stored token unposted.** -/
theorem unposted_step (h : Unposted s) (hflight : Flight s) (hfresh : Fresh s e)
    (hstep : Moves s e s') : Unposted s' := by
  cases hstep with
  | call => exact h.frame rfl rfl rfl rfl
  | join hc hstate hp => exact h.frame rfl rfl rfl rfl
  | start hc hstate hp => exact (h.doRefresh hflight hp).frame rfl rfl rfl rfl
  | answered hc hstate => exact h.frame rfl rfl rfl rfl
  | read hx hr => exact h.read hx
  | refuse hx hr => exact h.clear rfl rfl rfl
  | renew hx => exact h.renew (hfresh _ rfl) rfl rfl rfl
  | garbled hx => exact h.clear rfl rfl rfl
  | release hc hstate hx => exact h.frame rfl rfl rfl rfl
  | follow hc hstate hx => exact h.frame rfl rfl rfl rfl
  | retry hc hstate => exact h.frame rfl rfl rfl rfl
  | giveUp hc hstate => exact h.frame rfl rfl rfl rfl
  | login => exact h.renew (hfresh _ rfl) rfl rfl rfl
  | logout =>
    unfold useLogout
    cases s.store.refreshToken with
    | none => exact h.frame rfl rfl rfl rfl
    | some rt => exact h.frame rfl rfl rfl rfl
  | leave hl hsettled hdone => exact h.clear rfl rfl rfl

/-! ## Fetches -/

/-- Only refreshes have changed. -/
theorem CallsOk.later (h : CallsOk s) (hcalls : s'.calls = s.calls) (hrs : Later s.refreshes s'.refreshes) :
    CallsOk s' := by
  intro i c hc
  rw [hcalls] at hc
  exact (h i c hc).later hrs

/-- One call goes on. -/
theorem CallsOk.setCall {i : Nat} {c : ApiCall} (h : CallsOk s) (hc : CallOk s.refreshes c) :
    CallsOk (s.setCall i c) := by
  intro j d hd
  rcases List.getElem?_of_set hd with ⟨_, rfl⟩ | ⟨_, hd⟩
  · exact hc
  · exact h j d hd

/-- A call that has waited for a refresh is told how it ended. -/
theorem CallOk.refreshed {rs : List (Refresh R)} {c : ApiCall} {p : Nat} {ok : Bool} (h : CallOk rs c)
    (hstate : c.state = .starting p ∨ c.state = .joining p) (hx : rs[p]? = some (.settled ok)) :
    CallOk rs { c with state := .refreshed ok } := by
  have hwaits : c.fetches = 1 ∧ c.awaited = some p := by
    unfold CallOk at h
    rcases hstate with hstate | hstate
    · rw [hstate] at h
      exact h
    · rw [hstate] at h
      exact h
  exact ⟨hwaits.1, p, hwaits.2, hx⟩

/-- **The turns keep the fetches of every call at most two.** -/
theorem callsOk_step (h : CallsOk s) (hstep : Moves s e s') : CallsOk s' := by
  cases hstep with
  | call =>
    intro i c hc
    rcases List.getElem?_of_concat hc with ⟨_, rfl⟩ | hc
    · exact rfl
    · exact h i c hc
  | @join i r c p hc hstate hp =>
    have hone := h i c hc
    unfold CallOk at hone
    rw [hstate] at hone
    exact h.setCall ⟨hone, rfl⟩
  -- the first to see a 401 starts the refresh, which is a fetch of its own and not the call's
  | @start i r c hc hstate hp =>
    have hone := h i c hc
    unfold CallOk at hone
    rw [hstate] at hone
    obtain ⟨x, hx⟩ := doRefresh_refreshes (s := s)
    have hdo : CallsOk s.doRefresh := h.later doRefresh_calls (hx ▸ later_concat)
    exact CallsOk.setCall (s := { s.doRefresh with refreshPromise := some s.refreshes.length }) hdo ⟨hone, rfl⟩
  | @answered i r c hc hstate =>
    have hcall := h i c hc
    unfold CallOk at hcall
    rcases hstate with hstate | hstate
    · rw [hstate] at hcall
      exact h.setCall (.inl hcall)
    · rw [hstate] at hcall
      exact h.setCall (.inr hcall)
  | read hx hr => exact h.later rfl (later_set hx rfl)
  | refuse hx hr => exact h.later rfl (later_set hx rfl)
  | renew hx => exact h.later rfl (later_set hx rfl)
  | garbled hx => exact h.later rfl (later_set hx rfl)
  | @release i c p ok hc hstate hx => exact (h.setCall ((h i c hc).refreshed (.inl hstate) hx)).later rfl later_refl
  | @follow i c p ok hc hstate hx => exact h.setCall ((h i c hc).refreshed (.inr hstate) hx)
  | @retry i c hc hstate =>
    have hcall := h i c hc
    unfold CallOk at hcall
    rw [hstate] at hcall
    -- the retry is the second fetch, and it is not retried again
    exact h.setCall ⟨congrArg (· + 1) hcall.1, hcall.2⟩
  | @giveUp i c hc hstate =>
    have hcall := h i c hc
    unfold CallOk at hcall
    rw [hstate] at hcall
    exact h.setCall (.inl hcall.1)
  | login => exact h.later rfl later_refl
  | logout =>
    unfold useLogout
    cases s.store.refreshToken with
    | none => exact h.later rfl later_refl
    | some rt =>
      intro i c hc
      rcases List.getElem?_of_concat hc with ⟨_, rfl⟩ | hc
      · exact rfl
      · exact h i c hc
  | leave hl hsettled hdone => exact h.later rfl later_refl

/-! ## Every page that can be reached -/

theorem sound_step (h : Sound s) (hfresh : Fresh s e) (hstep : s.step e = some s') : Sound s' where
  flight := flight_step h.flight (moves_of_step hstep)
  unposted := unposted_step h.unposted h.flight hfresh (moves_of_step hstep)
  calls := callsOk_step h.calls (moves_of_step hstep)

theorem sound_of_reachable {C : Page A R → Turn A R → Prop} {s₀ : Page A R} (h₀ : Sound s₀)
    (hC : ∀ s e, C s e → Fresh s e) (h : Reachable C s₀ s) : Sound s := by
  induction h with
  | load => exact h₀
  | turn _ hturn hstep ih => exact sound_step ih (hC _ _ hturn) hstep

/-- A call fetches once or twice, and twice only after a refresh that succeeded. -/
theorem CallOk.fetches {rs : List (Refresh R)} {c : ApiCall} (h : CallOk rs c) :
    c.fetches ≤ 2 ∧ (c.fetches = 2 → Awaited rs c true) := by
  unfold CallOk at h
  cases hstate : c.state with
  | fetching =>
    rw [hstate] at h
    have hone : c.fetches = 1 := h
    exact ⟨by omega, fun htwo => by omega⟩
  | starting p | joining p | refreshed ok =>
    rw [hstate] at h
    have hone : c.fetches = 1 := h.1
    exact ⟨by omega, fun htwo => by omega⟩
  | retrying =>
    rw [hstate] at h
    exact ⟨Nat.le_of_eq h.1, fun _ => h.2⟩
  | returned =>
    rw [hstate] at h
    rcases h with hone | ⟨htwo, hawaited⟩
    · exact ⟨by omega, fun htwo => by omega⟩
    · exact ⟨Nat.le_of_eq htwo, fun _ => hawaited⟩

/-- **A single flight.** While the server never returns a refresh token twice, at
most one refresh is pending at any time, no token is posted for a refresh twice,
and a call fetches its path at most twice, the second time only after the refresh
it has waited for has succeeded. -/
theorem singleFlight {store : AuthStore A R} (h : Reachable Fresh (load store) s) :
    (∀ (p q : Nat) (x y : Refresh R), s.refreshes[p]? = some x → s.refreshes[q]? = some y →
      x.pending = true → y.pending = true → p = q) ∧
    s.posts.Nodup ∧
    ∀ (i : Nat) (c : ApiCall), s.calls[i]? = some c →
      c.fetches ≤ 2 ∧ (c.fetches = 2 → Awaited s.refreshes c true) := by
  have hsound := sound_of_reachable sound_load (fun _ _ h => h) h
  refine ⟨fun p q x y hx hy hxp hyp => ?_, hsound.unposted.nodup, fun i c hc => (hsound.calls i c hc).fetches⟩
  have hp := hsound.flight.pending p x hx hxp
  have hq := hsound.flight.pending q y hy hyp
  rw [hp] at hq
  exact Option.some.inj hq

/-- The page after these turns, if the tokens they bring are new. -/
def run [DecidableEq R] : Page A R → List (Turn A R) → Option (Page A R) :=
  Replay.run step fun s e => (brings e).all fun r => r ∉ s.received

theorem reachable_of_run [DecidableEq R] {s₀ : Page A R} {es : List (Turn A R)}
    (hs : Reachable Fresh s₀ s) (h : s.run es = some s') : Reachable Fresh s₀ s' := by
  refine Replay.run_rule (I := Reachable Fresh s₀) (fun {s s' e} hs hnew hstep => ?_) h hs
  have hfresh : Fresh s e := fun r hr => of_decide_eq_true ((Option.all_eq_true _ _).mp hnew r hr)
  exact .turn hs hfresh hstep

/-- What the page asks for. -/
def Sample.reports : ApiPath := ⟨"/api/reports", by decide⟩

/-- Two calls are answered with 401, the second one during the refresh. -/
def Sample.late401 : List (Turn Unit Nat) :=
  [.call Sample.reports, .call Sample.reports, .answer 0 (.status 401), .answer 1 (.status 401),
    .refreshAnswer 0 (.status 200), .refreshBody 0 (some ⟨(), 2⟩), .resume 0, .proceed 0, .resume 1,
    .proceed 1]

/-- Both calls have fetched again, with one refresh between them. -/
def Sample.retried : Page Unit Nat :=
  ⟨setTokens ⟨(), 2⟩, none, [.settled true],
    [⟨Sample.reports, .retrying, 2, some 0⟩, ⟨Sample.reports, .retrying, 2, some 0⟩], [], [1], [1, 2]⟩

theorem singleFlight_of_late401 : (load ⟨some (), some 1⟩).run Sample.late401 = some Sample.retried ∧
    Sample.retried.posts.Nodup := by
  have hrun : (load ⟨some (), some 1⟩).run Sample.late401 = some Sample.retried := rfl
  exact ⟨hrun, (singleFlight (reachable_of_run .load hrun)).2.1⟩

end Page

end Frontend

end ExpenseSaas
