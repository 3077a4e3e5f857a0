import ExpenseSaas.Rate.Library
import Mathlib.Logic.Function.Basic

/-!
# Rate limits

`internal/middleware/ratelimit.go`, over any library of limiters. A `rateLimitStore`
has a limiter for every key it has seen, and forgets those that have not been asked
for during two windows. A request asks the store for its limiter, reports what is
left in it, and then takes a token from it, reading the clock each time; between
these steps other requests and the cleanup may take theirs.

A request that has its limiter keeps it, forgotten or not, so a `Cell` lists every
limiter that was ever made for a key, and an entry of the map says which of them
it points to.
-/

namespace ExpenseSaas

namespace Middleware

open Rate (Time Duration Library)

/-- `limiterEntry`. -/
structure LimiterEntry where
  /-- The limiter, by its place among those of the key. -/
  limiter : Nat
  lastSeen : Time
  deriving DecidableEq

/-- What there is under a key: the entry of the map, and the limiters made so far. -/
structure Cell (lib : Library) where
  entry : Option LimiterEntry
  limiters : List lib.Limiter

/-- `rateLimitStore`. -/
structure RateLimitStore (lib : Library) (K : Type) where
  limit : lib.Limit
  burst : Int
  interval : Duration
  cells : K → Cell lib

/-- `newRateLimitStore`: `limit` requests for each window. -/
def newRateLimitStore (lib : Library) {K : Type} (limit : Int) (window : Duration) : RateLimitStore lib K :=
  ⟨lib.every (window.tdiv limit), limit, window, fun _ => ⟨none, []⟩⟩

section

variable {lib : Library}

/-- `get`, for one key. -/
def Cell.get (c : Cell lib) (fresh : lib.Limiter) (now : Time) : Nat × Cell lib :=
  match c.entry with
  | some e => (e.limiter, { c with entry := some { e with lastSeen := now } })
  | none => (c.limiters.length, ⟨some ⟨c.limiters.length, now⟩, c.limiters ++ [fresh]⟩)

/-- `cleanup`, for one key: the entry goes if it was last seen before `cutoff`. -/
def Cell.evict (c : Cell lib) (cutoff : Time) : Cell lib :=
  match c.entry with
  | some e => if e.lastSeen < cutoff then { c with entry := none } else c
  | none => c

/-- `Allow` on a limiter of the key. -/
def Cell.allow (c : Cell lib) (i : Nat) (now : Time) : Option (Bool × Cell lib) :=
  (c.limiters[i]?).map fun l =>
    ((lib.allow l now).1, { c with limiters := c.limiters.set i (lib.allow l now).2 })

/-- `remaining` of `setRateLimitHeaders`. -/
def remaining (l : lib.Limiter) (now : Time) : Int := max 0 ⌊lib.tokens l now⌋

end

/-- A request that is counted under `key`. -/
structure LimitedRequest (K : Type) where
  id : Nat
  key : K
  deriving DecidableEq

/-- The atomic steps, each at the time the clock is read for it. -/
inductive LimitStep (K : Type) where
  /-- `store.get(key)`. -/
  | get (r : LimitedRequest K) (now : Time)
  /-- `l.Tokens()`. -/
  | tokens (r : LimitedRequest K) (now : Time)
  /-- `l.Allow()`. -/
  | allow (r : LimitedRequest K) (now : Time)
  /-- A cleanup that was started at a time comes to a key, some time later. -/
  | evict (key : K) (started : Time) (later : Nat)
  deriving DecidableEq

/-- When the step is taken. -/
def LimitStep.time {K : Type} : LimitStep K → Time
  | .get _ now => now
  | .tokens _ now => now
  | .allow _ now => now
  | .evict _ started later => started + later

/-- The step removes nothing. -/
def LimitStep.keeps {K : Type} : LimitStep K → Bool
  | .evict .. => false
  | _ => true

/-- What a request is told: the remaining count of its header, and whether it may go on. -/
inductive LimitAnswer (K : Type) where
  | remaining (r : LimitedRequest K) (n : Int)
  | allowed (r : LimitedRequest K) (ok : Bool)
  deriving DecidableEq

/-- A store, and the limiters that requests hold. -/
structure Limiting (lib : Library) (K : Type) where
  store : RateLimitStore lib K
  held : LimitedRequest K → Option Nat

namespace Limiting

variable {lib : Library} {K : Type}

/-- A new store, before any request. -/
def new (lib : Library) (limit : Int) (window : Duration) : Limiting lib K :=
  ⟨newRateLimitStore lib limit window, fun _ => none⟩

variable [DecidableEq K]

/-- Change what is under a key. -/
def setCell (s : Limiting lib K) (key : K) (c : Cell lib) : Limiting lib K :=
  { s with store := { s.store with cells := Function.update s.store.cells key c } }

/-- Give a request a limiter. -/
def hold (s : Limiting lib K) (r : LimitedRequest K) (i : Nat) : Limiting lib K :=
  { s with held := Function.update s.held r (some i) }

/-- The limiter a request has been given. -/
def limiterOf (s : Limiting lib K) (r : LimitedRequest K) : Option lib.Limiter :=
  (s.held r).bind fun i => (s.store.cells r.key).limiters[i]?

/-- A step, and what it tells. -/
def step (s : Limiting lib K) : LimitStep K → Limiting lib K × Option (LimitAnswer K)
  | .get r now =>
      let (i, c) := (s.store.cells r.key).get (lib.newLimiter s.store.limit s.store.burst) now
      ((s.setCell r.key c).hold r i, none)
  | .tokens r now => (s, (s.limiterOf r).map fun l => .remaining r (remaining l now))
  | .allow r now =>
      match (s.held r).bind fun i => (s.store.cells r.key).allow i now with
      | some (ok, c) => (s.setCell r.key c, some (.allowed r ok))
      | none => (s, none)
  | .evict key started _ =>
      (s.setCell key ((s.store.cells key).evict (started - s.store.interval * 2)), none)

/-- All that is told. -/
def run : Limiting lib K → List (LimitStep K) → List (LimitAnswer K)
  | _, [] => []
  | s, e :: es => (s.step e).2.toList ++ run (s.step e).1 es

theorem run_cons {s : Limiting lib K} {e : LimitStep K} {es : List (LimitStep K)} :
    s.run (e :: es) = (s.step e).2.toList ++ (s.step e).1.run es := rfl

variable {s : Limiting lib K} {key key' : K} {c : Cell lib} {p q : LimitedRequest K} {i : Nat}

@[simp] theorem cells_setCell : (s.setCell key c).store.cells key = c := Function.update_self ..

theorem cells_setCell_ne (h : key' ≠ key) : (s.setCell key c).store.cells key' = s.store.cells key' :=
  Function.update_of_ne h ..

@[simp] theorem held_hold : (s.hold q i).held q = some i := Function.update_self ..

theorem held_hold_ne (h : p ≠ q) : (s.hold q i).held p = s.held p := Function.update_of_ne h ..

end Limiting

/-- A store of these parameters. -/
structure RateLimitStore.Has {lib : Library} {K : Type} (limit : Int) (window : Duration)
    (s : RateLimitStore lib K) : Prop where
  limit_eq : s.limit = lib.every (window.tdiv limit)
  burst_eq : s.burst = limit
  interval_eq : s.interval = window

/-- The limiters a store makes. -/
abbrev fresh (lib : Library) (limit : Int) (window : Duration) : lib.Limiter :=
  lib.newLimiter (lib.every (window.tdiv limit)) limit

section

variable {lib : Library} {K : Type} [DecidableEq K] {limit : Int} {window : Duration} {s : Limiting lib K}

omit [DecidableEq K] in
theorem has_new : (Limiting.new lib limit window : Limiting lib K).store.Has limit window := ⟨rfl, rfl, rfl⟩

/-- The parameters never change. -/
theorem RateLimitStore.Has.step (h : s.store.Has limit window) (e : LimitStep K) :
    (s.step e).1.store.Has limit window := by
  obtain ⟨hlimit, hburst, hinterval⟩ := h
  cases e with
  | get q now => exact ⟨hlimit, hburst, hinterval⟩
  | tokens q now => exact ⟨hlimit, hburst, hinterval⟩
  | evict key started later => exact ⟨hlimit, hburst, hinterval⟩
  | allow q now =>
    unfold Limiting.step
    dsimp only
    split
    · exact ⟨hlimit, hburst, hinterval⟩
    · exact ⟨hlimit, hburst, hinterval⟩

/-- A request is given what is under its key. -/
theorem step_get (h : s.store.Has limit window) {q : LimitedRequest K} {now : Time} :
    (s.step (.get q now)).1 =
      (s.setCell q.key ((s.store.cells q.key).get (fresh lib limit window) now).2).hold q
        ((s.store.cells q.key).get (fresh lib limit window) now).1 := by
  unfold Limiting.step
  rw [h.limit_eq, h.burst_eq]

end

end Middleware

end ExpenseSaas
