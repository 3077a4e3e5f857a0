/-!
# The API client of the browser

`frontend/src/api/client.ts`, `stores/auth.ts` and `hooks/useLogout.ts`: the
state of the modules during the lifetime of a page, and what each turn of the
event loop does to it. An `async` function runs up to its next `await` in one
turn, and goes on in another one once what it awaits is settled; in which order
such turns come is left open.

Tokens are values of any type. A stored token that is the empty string counts as
none, as it does for `if (!rt)`. The turn that brings the tokens of a login sets
them once in the hook and once in the page, in the same turn; this is `login`.
-/

namespace ExpenseSaas

namespace Frontend

/-- `AuthTokens`: the tokens in a response. -/
structure AuthTokens (A R : Type) where
  accessToken : A
  refreshToken : R

/-- The variables of `stores/auth.ts`. -/
structure AuthStore (A R : Type) where
  accessToken : Option A
  refreshToken : Option R

/-- `setTokens`. -/
def setTokens {A R : Type} (t : AuthTokens A R) : AuthStore A R :=
  ⟨some t.accessToken, some t.refreshToken⟩

/-- `clearTokens`. -/
def clearTokens {A R : Type} : AuthStore A R := ⟨none, none⟩

/-- How a `fetch` ends: without a response, or with a status. -/
inductive Response where
  | failed
  | status (n : Nat)
  deriving DecidableEq, Repr

/-- `res.ok`. -/
def Response.ok : Response → Bool
  | .failed => false
  | .status n => 200 ≤ n && n < 300

/-- `doRefresh`, and how far it is. -/
inductive Refresh (R : Type) where
  /-- The request is on its way. -/
  | posted (rt : R)
  /-- The response is a success, and its body is awaited. -/
  | reading (rt : R)
  | settled (ok : Bool)

/-- Not settled yet. -/
def Refresh.pending {R : Type} : Refresh R → Bool
  | .settled _ => false
  | _ => true

/-- The path of a call; nothing in the application calls the client for a refresh. -/
structure ApiPath where
  path : String
  path_ne : path ≠ "/api/auth/refresh"

/-- Where a call of `apiClient` is. -/
inductive CallState where
  | fetching
  /-- It has started the refresh that it awaits. -/
  | starting (p : Nat)
  /-- It awaits a refresh that was under way. -/
  | joining (p : Nat)
  /-- `refreshAccessToken` has returned. -/
  | refreshed (ok : Bool)
  | retrying
  | returned
  deriving DecidableEq

/-- A call of `apiClient`. -/
structure ApiCall where
  path : ApiPath
  state : CallState
  /-- How often it has fetched its path. -/
  fetches : Nat
  /-- The refresh it has waited for. -/
  awaited : Option Nat

/-- A run of the mutation of `useLogout`. -/
structure Logout (R : Type) where
  /-- The token it has read, and the call it makes with it. -/
  sent : Option (R × Nat)
  settled : Bool

/-- The page. -/
structure Page (A R : Type) where
  store : AuthStore A R
  /-- `refreshPromise`. -/
  refreshPromise : Option Nat
  refreshes : List (Refresh R)
  calls : List ApiCall
  logouts : List (Logout R)
  /-- Every refresh token that was posted, in this order. -/
  posts : List R
  /-- Every refresh token the server has returned. -/
  received : List R

/-- What happens next. -/
inductive Turn (A R : Type) where
  /-- `apiClient` is called. -/
  | call (path : ApiPath)
  /-- The fetch of a call ends. -/
  | answer (i : Nat) (r : Response)
  /-- The request of a refresh ends. -/
  | refreshAnswer (p : Nat) (r : Response)
  /-- Its body arrives, or cannot be read. -/
  | refreshBody (p : Nat) (body : Option (AuthTokens A R))
  /-- `refreshAccessToken` goes on after its `await`. -/
  | resume (i : Nat)
  /-- `apiClient` goes on after the refresh. -/
  | proceed (i : Nat)
  /-- The tokens of a login or a signup arrive. -/
  | login (t : AuthTokens A R)
  /-- `useLogout` is called. -/
  | logout
  /-- Its `onSettled` runs. -/
  | settleLogout (j : Nat)

namespace Page

variable {A R : Type}

/-- The page after it was loaded, with the tokens the session storage had. -/
def load (store : AuthStore A R) : Page A R :=
  ⟨store, none, [], [], [], [], store.refreshToken.toList⟩

def setCall (s : Page A R) (i : Nat) (c : ApiCall) : Page A R :=
  { s with calls := s.calls.set i c }

/-- The refresh is settled, and the tokens are what it leaves. -/
def settle (s : Page A R) (p : Nat) (ok : Bool) (store : AuthStore A R) : Page A R :=
  { s with refreshes := s.refreshes.set p (.settled ok), store := store }

/-- `doRefresh`, up to its first `await`. -/
def doRefresh (s : Page A R) : Page A R :=
  match s.store.refreshToken with
  | none => { s with store := clearTokens, refreshes := s.refreshes ++ [.settled false] }
  | some rt => { s with refreshes := s.refreshes ++ [.posted rt], posts := s.posts ++ [rt] }

/-- `refreshAccessToken`, up to its `await`, for a call. -/
def refreshAccessToken (s : Page A R) (i : Nat) (c : ApiCall) : Page A R :=
  match s.refreshPromise with
  | some p => s.setCall i { c with state := .joining p, awaited := some p }
  | none =>
    let p := s.refreshes.length
    { s.doRefresh with refreshPromise := some p }.setCall i
      { c with state := .starting p, awaited := some p }

/-- A call of `apiClient`, up to its first `await`. -/
def apiClient (s : Page A R) (path : ApiPath) : Page A R :=
  { s with calls := s.calls ++ [⟨path, .fetching, 1, none⟩] }

/-- The path `useLogout` posts to. -/
def logoutPath : ApiPath := ⟨"/api/auth/logout", by decide⟩

/-- The mutation of `useLogout`, up to its first `await`. -/
def useLogout (s : Page A R) : Page A R :=
  match s.store.refreshToken with
  | none => { s with logouts := s.logouts ++ [⟨none, false⟩] }
  | some rt => { s.apiClient logoutPath with
      logouts := s.logouts ++ [⟨some (rt, s.calls.length), false⟩] }

/-- The mutation has nothing left to await. -/
def logoutDone (s : Page A R) (l : Logout R) : Bool :=
  match l.sent with
  | none => true
  | some (_, i) => (s.calls[i]?).any fun c => c.state = .returned

/-- The end of the first fetch of a call. -/
def fetched (s : Page A R) (i : Nat) (c : ApiCall) (r : Response) : Page A R :=
  if r = .status 401 ∧ c.path.path ≠ "/api/auth/login" then s.refreshAccessToken i c
  else s.setCall i { c with state := .returned }

/-- One turn of the event loop. -/
def step (s : Page A R) : Turn A R → Option (Page A R)
  | .call path => some (s.apiClient path)
  | .answer i r => do
      let c ← s.calls[i]?
      match c.state with
      | .fetching => some (s.fetched i c r)
      | .retrying => some (s.setCall i { c with state := .returned })
      | _ => none
  | .refreshAnswer p r => do
      let x ← s.refreshes[p]?
      match x with
      | .posted rt =>
        if r.ok then some { s with refreshes := s.refreshes.set p (.reading rt) }
        else some (s.settle p false clearTokens)
      | _ => none
  | .refreshBody p body => do
      let x ← s.refreshes[p]?
      match x, body with
      | .reading _, some t =>
        some { s.settle p true (setTokens t) with received := s.received ++ [t.refreshToken] }
      | .reading _, none => some (s.settle p false clearTokens)
      | _, _ => none
  | .resume i => do
      let c ← s.calls[i]?
      match c.state with
      | .starting p => do
          let x ← s.refreshes[p]?
          match x with
          | .settled ok =>
            some { s.setCall i { c with state := .refreshed ok } with refreshPromise := none }
          | _ => none
      | .joining p => do
          let x ← s.refreshes[p]?
          match x with
          | .settled ok => some (s.setCall i { c with state := .refreshed ok })
          | _ => none
      | _ => none
  | .proceed i => do
      let c ← s.calls[i]?
      match c.state with
      | .refreshed true => some (s.setCall i { c with state := .retrying, fetches := c.fetches + 1 })
      | .refreshed false => some (s.setCall i { c with state := .returned })
      | _ => none
  | .login t => some { s with store := setTokens t, received := s.received ++ [t.refreshToken] }
  | .logout => some s.useLogout
  | .settleLogout j => do
      let l ← s.logouts[j]?
      if !l.settled && s.logoutDone l then
        some { s with store := clearTokens, logouts := s.logouts.set j { l with settled := true } }
      else none

/-- The tokens a turn brings. -/
def brings : Turn A R → Option R
  | .refreshBody _ (some t) => some t.refreshToken
  | .login t => some t.refreshToken
  | _ => none

/-- The pages that a loaded page can become, if each turn has `C`. -/
inductive Reachable (C : Page A R → Turn A R → Prop) (s₀ : Page A R) : Page A R → Prop where
  | load : Reachable C s₀ s₀
  | turn {s s' : Page A R} {e : Turn A R} :
      Reachable C s₀ s → C s e → s.step e = some s' → Reachable C s₀ s'

/-- The server never returns the same refresh token twice. -/
def Fresh (s : Page A R) (e : Turn A R) : Prop := ∀ r, brings e = some r → r ∉ s.received

end Page

end Frontend

end ExpenseSaas
