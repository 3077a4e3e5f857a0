import ExpenseSaas.Middleware.TenantContext
import ExpenseSaas.Wire.Conn
import ExpenseSaas.Server

/-!
# Connections of the pool

Any number of requests share a pool of connections. A request takes a connection
that is idle in the pool, or a new one; when it releases it, the pool keeps it if
it is open and not in a transaction, and destroys it otherwise.

`Does` lists what can become of each command of a request, and `tenantContext_safe`
goes through the middleware once, with everything that can go wrong at each
command: a statement of the handler finds the transaction of its tenant, and the
connection is given back. `clean_of_reachable` and `within_of_reachable` are what
that means for the pool.
-/

namespace ExpenseSaas

open ReadCommitted Wire

namespace Middleware

variable {E : Engine}

/-! ## The pool -/

/-- A command of a request that holds the connection `c`, or none: how it can be answered, and
what it leaves. -/
inductive Does : Option (Conn String) → (a : Act E) → a.Resp → Option (Conn String) → Prop where
  | unavailable {held} : Does held .acquire false held
  | begin {c} (v : Verdict) : Does (some c) .begin (c.judge .begin v = .done)
      (some (c.next .begin (c.judge .begin v)))
  | setConfig {c tenantID} (v : Verdict) : Does (some c) (.setConfig tenantID)
      (c.judge (.setLocal tenantID) v = .done)
      (some (c.next (.setLocal tenantID) (c.judge (.setLocal tenantID) v)))
  | commit {c} (v : Verdict) : Does (some c) .commit (c.judge .commit v = .done)
      (some (c.next .commit (c.judge .commit v)))
  | rollback {c} (v : Verdict) : Does (some c) .rollback (c.judge .rollback v = .done)
      (some (c.next .rollback (c.judge .rollback v)))
  | sql {c q} (v : Verdict) (r : Except E.ε (E.RS q)) : Does (some c) (.sql .conn q) r
      (some (c.next .stmt (c.judge .stmt v)))
  | elsewhere {held db q} (r : Except E.ε (E.RS q)) : db ≠ .conn → Does held (.sql db q) r held
  | ext {held x} (r : E.RX x) : Does held (.ext x) r held
  | writeHeader {held code} : Does held (.writeHeader code) () held
  | write {held flushes} : Does held (.write flushes) () held

/-- A request in progress. -/
structure InFlight (E : Engine) where
  tenantID : String
  prog : Request E End
  held : Option (Conn String)

/-- The pool and the requests. -/
structure Pool (E : Engine) where
  idle : List (Conn String)
  requests : List (InFlight E)

namespace Pool

/-- Request `i` goes on with `prog`, and holds `held`. -/
def goOn (p : Pool E) (i : Nat) (f : InFlight E) (prog : Request E End)
    (held : Option (Conn String)) (idle : List (Conn String)) : Pool E :=
  ⟨idle, p.requests.set i ⟨f.tenantID, prog, held⟩⟩

/-- A step of the pool. -/
inductive Step : Pool E → Pool E → Prop where
  /-- A request with a token of the tenant, for any handler. -/
  | arrive {p : Pool E} (tenantID : String) (next : Handler E) :
      Step p { p with requests := p.requests ++
        [⟨tenantID, tenantContext ⟨tenantID, false, false⟩ next, none⟩] }
  /-- It is given an idle connection. -/
  | take {p : Pool E} {i j : Nat} {f : InFlight E} {k c} : p.requests[i]? = some f →
      f.prog = .exec .acquire k → p.idle[j]? = some c →
      Step p (p.goOn i f (k true) (some c) (p.idle.eraseIdx j))
  /-- It is given a new connection. -/
  | dial {p : Pool E} {i : Nat} {f : InFlight E} {k} : p.requests[i]? = some f →
      f.prog = .exec .acquire k → Step p (p.goOn i f (k true) (some .fresh) p.idle)
  /-- It gives its connection back. -/
  | release {p : Pool E} {i : Nat} {f : InFlight E} {k c} : p.requests[i]? = some f →
      f.prog = .exec .release k → f.held = some c →
      Step p (p.goOn i f (k ()) none (if c.reusable then c :: p.idle else p.idle))
  | command {p : Pool E} {i : Nat} {f : InFlight E} {a : Act E} {k r held} :
      p.requests[i]? = some f → f.prog = .exec a k → Does f.held a r held →
      Step p (p.goOn i f (k r) held p.idle)
  /-- The pool closes an idle connection. -/
  | discard {p : Pool E} (j : Nat) : Step p { p with idle := p.idle.eraseIdx j }

/-- What a pool that starts empty can come to. -/
inductive Reachable : Pool E → Prop where
  | init : Reachable ⟨[], []⟩
  | tail {p p' : Pool E} : Reachable p → Step p p' → Reachable p'

end Pool

/-! ## One request -/

/-- What a request may meet, when the pool hands out clean connections only. -/
inductive Meets : Option (Conn String) → (a : Act E) → a.Resp → Option (Conn String) → Prop where
  | does {held a r held'} : Does held a r held' → Meets held a r held'
  | granted {held c} : c.Clean → Meets held .acquire true (some c)
  | released {held} : Meets held .release () none

/-- A statement runs in a transaction of the tenant, and what is given back is tidy. -/
def Allowed (tenantID : String) : Option (Conn String) → Act E → Prop
  | held, .sql db _ => db = .conn ∧ ∃ c, held = some c ∧ c.Within tenantID
  | held, .release => ∃ c, held = some c ∧ c.Tidy
  | held, .acquire => held = none
  | _, _ => True

/-- The request keeps to what is allowed, and ends without a connection. -/
abbrev SafeFrom (tenantID : String) {α : Type} (p : Request E α)
    (Q : Option (Conn String) → α → Prop) (held : Option (Conn String)) : Prop :=
  Prog.Safe (Allowed tenantID) Meets p Q held

/-- The connection of a request, in order. -/
def Holds (held : Option (Conn String)) : Prop := ∃ c, held = some c ∧ c.Tidy

section

variable {tenantID : String} {α : Type} {Q : Option (Conn String) → α → Prop}
  {held : Option (Conn String)} {c : Conn String}

theorem safe_respondError {code : StatusCode} {a : α} (h : Q held a) :
    SafeFrom (E := E) tenantID (respondError code >>= fun _ => pure a) Q held := by
  refine ⟨trivial, fun r held' hr => ?_⟩
  cases hr with
  | does hr =>
    cases hr with
    | writeHeader =>
      refine ⟨trivial, fun r held' hr => ?_⟩
      cases hr with
      | does hr =>
        cases hr with
        | write => exact h

/-- A handler's statements run in the transaction, whatever becomes of them. -/
theorem safe_serve {next : Handler E} {status : Nat} (ht : c.Tidy) (hw : c.Within tenantID) :
    SafeFrom tenantID (serve (Context.setConn ⟨tenantID, false, false⟩) next status)
      (fun held _ => Holds held) (some c) := by
  induction next generalizing c status with
  | ret e => exact ⟨c, rfl, ht⟩
  | exec a k ih =>
    cases a with
    | sql q =>
      refine ⟨⟨rfl, c, rfl, hw⟩, fun r held hr => ?_⟩
      cases hr with
      | does hr =>
        cases hr with
        | sql v => exact ih r ht.next hw.stmt
        | elsewhere r hne => exact absurd rfl hne
    | ext x =>
      refine ⟨trivial, fun r held hr => ?_⟩
      cases hr with
      | does hr => cases hr with
        | ext r => exact ih r ht hw
    | writeHeader code =>
      refine ⟨trivial, fun r held hr => ?_⟩
      cases hr with
      | does hr => cases hr with
        | writeHeader => exact ih () ht hw
    | write flushes =>
      refine ⟨trivial, fun r held hr => ?_⟩
      cases hr with
      | does hr => cases hr with
        | write => exact ih () ht hw

theorem safe_commitOn {status : Nat} {e : End} (ht : c.Tidy) :
    SafeFrom (E := E) tenantID (commitOn status e) (fun held _ => Holds held) (some c) := by
  cases e with
  | panicked => exact ⟨c, rfl, ht⟩
  | returned =>
    unfold commitOn
    dsimp only
    split
    · refine ⟨trivial, fun r held hr => ?_⟩
      cases hr with
      | does hr => cases hr with
        | commit v => exact ⟨_, rfl, ht.next⟩
    · exact ⟨c, rfl, ht⟩

/-- **The transaction of a request leaves a tidy connection**, however far it gets. -/
theorem safe_transaction {next : Handler E} (hc : c.Clean) :
    SafeFrom tenantID (transaction ⟨tenantID, false, false⟩ next) (fun held _ => Holds held)
      (some c) := by
  unfold transaction
  refine ⟨trivial, fun begun held hr => ?_⟩
  cases hr with
  | does hr => cases hr with
    | begin v =>
      rw [Conn.judge_of_sound hc.1 (by simp [hc.2.1])]
      have ht := @Conn.Tidy.next _ _ .begin v hc.tidy
      by_cases hv : v = .done
      · subst hv
        refine ⟨trivial, fun set held hr => ?_⟩
        cases hr with
        | does hr => cases hr with
          | setConfig v =>
            rw [Conn.judge_of_sound (by simp [Conn.next, hc.1, hc.2.1])
              (by simp [Conn.next, hc.2.1])]
            by_cases hv : v = .done
            · subst hv
              show SafeFrom tenantID (serve (Context.setConn ⟨tenantID, false, false⟩) next 200 >>=
                fun r => commitOn r.1 r.2) _ _
              refine Prog.safe_bind.mpr ((safe_serve ht.next hc.within).mono fun held r h => ?_)
              obtain ⟨c', rfl, hc'⟩ := h
              exact safe_commitOn hc'
            · simp only [hv, decide_false]
              exact safe_respondError ⟨_, rfl, ht.next⟩
      · simp only [hv, decide_false]
        exact safe_respondError ⟨_, rfl, ht⟩

/-- The deferred function gives the connection back. -/
theorem safe_deferred {committed : Bool} {e : End} (ht : c.Tidy) :
    SafeFrom (E := E) tenantID (deferred committed e) (fun held _ => held = none) (some c) := by
  have hrelease : ∀ {c : Conn String}, c.Tidy → SafeFrom (E := E) tenantID
      (do let _ : Unit ← act .release; pure e) (fun held _ => held = none) (some c) := by
    intro c ht
    refine ⟨⟨c, rfl, ht⟩, fun r held hr => ?_⟩
    cases hr with
    | does hr => cases hr
    | released => rfl
  cases committed with
  | true => exact hrelease ht
  | false =>
    refine ⟨trivial, fun r held hr => ?_⟩
    cases hr with
    | does hr => cases hr with
      | rollback v => exact hrelease ht.next

/-- **A request keeps to the transaction of its tenant and gives its connection back tidy.** -/
theorem safe_tenantContext {next : Handler E} :
    SafeFrom tenantID (tenantContext ⟨tenantID, false, false⟩ next) (fun held _ => held = none)
      none := by
  unfold tenantContext
  split
  · exact safe_respondError rfl
  · refine ⟨rfl, fun acquired held hr => ?_⟩
    cases hr with
    | does hr => cases hr with
      | unavailable => exact safe_respondError rfl
    | granted hc =>
      show SafeFrom tenantID (transaction ⟨tenantID, false, false⟩ next >>=
        fun r => deferred r.1 r.2) _ _
      refine Prog.safe_bind.mpr ((safe_transaction hc).mono fun held r h => ?_)
      obtain ⟨c', rfl, hc'⟩ := h
      exact safe_deferred hc'

end

/-! ## All requests -/

/-- Every idle connection is clean, and every request keeps to what is allowed. -/
structure Hygienic (p : Pool E) : Prop where
  idle : ∀ c ∈ p.idle, c.Clean
  requests : ∀ f ∈ p.requests, SafeFrom f.tenantID f.prog (fun held _ => held = none) f.held

variable {p p' : Pool E}

/-- A request that goes on as it may keeps the pool in order. -/
theorem Hygienic.goOn {i : Nat} {f : InFlight E} {prog : Request E End}
    {held : Option (Conn String)} {idle : List (Conn String)} (h : Hygienic p)
    (hidle : ∀ c ∈ idle, c.Clean)
    (hf : SafeFrom f.tenantID prog (fun held _ => held = none) held) :
    Hygienic (p.goOn i f prog held idle) where
  idle := hidle
  requests g hg := by
    rcases List.mem_or_eq_of_mem_set hg with hg | rfl
    · exact h.requests g hg
    · exact hf

theorem Hygienic.step (h : Hygienic p) (hstep : p.Step p') : Hygienic p' := by
  cases hstep with
  | arrive tenantID next =>
    refine ⟨h.idle, fun f hf => ?_⟩
    rcases List.mem_append.mp hf with hf | hf
    · exact h.requests f hf
    · rw [List.mem_singleton.mp hf]
      exact safe_tenantContext
  | @take i j f k c hf hp hc =>
    have hsafe := h.requests f (List.mem_of_getElem? hf)
    rw [hp] at hsafe
    refine h.goOn (fun c hc => h.idle c (List.mem_of_mem_eraseIdx hc)) ?_
    exact hsafe.2 _ _ (.granted (h.idle c (List.mem_of_getElem? hc)))
  | @dial i f k hf hp =>
    have hsafe := h.requests f (List.mem_of_getElem? hf)
    rw [hp] at hsafe
    exact h.goOn h.idle (hsafe.2 _ _ (.granted Conn.clean_fresh))
  | @release i f k c hf hp hheld =>
    have hsafe := h.requests f (List.mem_of_getElem? hf)
    rw [hp, hheld] at hsafe
    obtain ⟨⟨c', hc', ht⟩, hk⟩ := hsafe
    cases hc'
    refine h.goOn (fun x hx => ?_) (hk _ _ .released)
    split at hx
    · rename_i hr
      rcases List.mem_cons.mp hx with rfl | hx
      · exact ht.clean hr
      · exact h.idle x hx
    · exact h.idle x hx
  | @command i f a k r held hf hp hr =>
    have hsafe := h.requests f (List.mem_of_getElem? hf)
    rw [hp] at hsafe
    exact h.goOn h.idle (hsafe.2 _ _ (.does hr))
  | discard j => exact ⟨fun c hc => h.idle c (List.mem_of_mem_eraseIdx hc), h.requests⟩

theorem hygienic_of_reachable (h : p.Reachable) : Hygienic p := by
  induction h with
  | init => exact ⟨nofun, nofun⟩
  | tail _ hstep ih => exact ih.step hstep

/--
**Connections are clean and statements keep to their tenant**, in every run of
any number of requests, whatever fails. Whatever the pool can hand out has no open
transaction and no tenant, and a statement that a handler issues through
`queries(ctx, pool)` is on the request's own connection, which is in a
transaction with the tenant of the request's token unless it is closed, when
nothing runs on it.
-/
theorem hygiene_of_reachable (h : p.Reachable) :
    (∀ c ∈ p.idle, c.Clean) ∧
      ∀ f ∈ p.requests, ∀ db q k, f.prog = .exec (.sql db q) k →
        db = .conn ∧ ∃ c, f.held = some c ∧ c.Within f.tenantID := by
  obtain ⟨hidle, hrequests⟩ := hygienic_of_reachable h
  refine ⟨hidle, fun f hf db q k hp => ?_⟩
  have hsafe := hrequests f hf
  rw [hp] at hsafe
  exact hsafe.1

end Middleware

namespace Sample

open Middleware

/-- A handler that panics at once, and one that reads the members of a tenant. -/
def panics : Handler server := .ret .panicked

def reads : Handler server :=
  .exec (.sql (.hasApprover 10)) fun _ => .exec (.writeHeader ⟨200, by decide⟩) fun _ =>
    .ret .returned

/-- The first request has panicked and its connection is back in the pool; the second, of another
tenant, has been given that connection and is about to issue its statement. -/
def secondTenant : Pool server :=
  ⟨[], [⟨"9", .ret .panicked, none⟩,
    ⟨"10", serve (Context.setConn ⟨"10", false, false⟩) reads 200 >>= fun r =>
        commitOn r.1 r.2 >>= fun r => deferred r.1 r.2,
      some (((Conn.fresh).next .begin .done).next (.setLocal "10") .done)⟩]⟩

theorem reachable_secondTenant : secondTenant.Reachable := by
  have arrived := Pool.Reachable.init.tail (.arrive "9" panics)
  have dialled := arrived.tail (.dial (i := 0) rfl rfl)
  have begun := dialled.tail (.command (i := 0) rfl rfl (.begin .done))
  have panicked := begun.tail (.command (i := 0) rfl rfl (.setConfig .done))
  have undone := panicked.tail (.command (i := 0) rfl rfl (.rollback .done))
  have released := undone.tail (.release (i := 0) rfl rfl rfl)
  have second := released.tail (.arrive "10" reads)
  have taken := second.tail (.take (i := 1) (j := 0) rfl rfl rfl)
  have begun := taken.tail (.command (i := 1) rfl rfl (.begin .done))
  have reading := begun.tail (.command (i := 1) rfl rfl (.setConfig .done))
  exact reading

end Sample

namespace Middleware

theorem hygiene_of_secondTenant :
    (∀ c ∈ Sample.secondTenant.idle, c.Clean) ∧
      ∀ f ∈ Sample.secondTenant.requests, ∀ db q k, f.prog = .exec (.sql db q) k →
        db = .conn ∧ ∃ c, f.held = some c ∧ c.Within f.tenantID :=
  hygiene_of_reachable Sample.reachable_secondTenant

end Middleware

end ExpenseSaas
