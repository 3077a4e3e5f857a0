import ExpenseSaas.Middleware.TenantContext
import ExpenseSaas.Runs.Schedules
import ExpenseSaas.Wire.Conn

/-!
# What the status says about the database

One request, from the database it finds to the database it leaves and the status
its client receives. What becomes of each command is up to the surroundings
(`Turn`): any statement, `BEGIN`, `COMMIT` or `ROLLBACK` may fail, in any way.

The middleware decides by the status that was written last and commits after the
response was made, so that the client is told the truth only if nothing comes in
between: `truthful_iff` says exactly when.
-/

namespace ExpenseSaas

open ReadCommitted Wire

namespace Middleware

/-! ## The response -/

/-- A response on its way, as `net/http` keeps it: the first final status stays. -/
structure Response where
  header : Option Nat
  /-- The client has it, whatever happens next. -/
  flushed : Bool
  deriving DecidableEq, Repr

namespace Response

def new : Response := ⟨none, false⟩

/-- A status that announces another one. -/
def informational (code : Nat) : Bool := code < 200 && code ≠ 101

/-- `WriteHeader`. -/
def writeHeader (r : Response) (code : Nat) : Response :=
  if r.header.isNone && !informational code then { r with header := some code } else r

/-- `Write`: without a status it is 200. -/
def write (r : Response) (flushes : Bool) : Response :=
  ⟨some (r.header.getD 200), r.flushed || flushes⟩

/-- The status the client receives; after a panic the connection is cut. -/
def received (r : Response) : End → Option Nat
  | .returned => some (r.header.getD 200)
  | .panicked => if r.flushed then r.header else none

end Response

/-- The client is told that the request went through. -/
def accepted (received : Option Nat) : Bool := received.any fun code => code < 400

/-! ## One request -/

variable {E : Engine}

/-- What the surroundings decide at a command. -/
structure Turn (E : Engine) where
  verdict : Verdict
  /-- A `COMMIT` over which the connection is lost may have gone through. -/
  persisted : Bool
  o : E.O
  error : E.ε

/-- Where a request is. -/
structure State (E : Engine) where
  /-- What is committed. -/
  db : E.D
  conn : Conn String
  /-- The database with the effects of all statements of the transaction. -/
  view : E.D
  clock : E.O
  response : Response
  turn : Nat

/-- A request that has just arrived. -/
def State.new (env : Nat → Turn E) (d : E.D) : State E := ⟨d, .fresh, d, (env 0).o, .new, 0⟩

/-- The `COMMIT` makes the transaction's effects current. -/
def goesThrough (c : Conn String) (t : Turn E) : Bool :=
  !c.closed && c.status = .active && (t.verdict = .done || (t.verdict = .lost && t.persisted))

/-- A statement on the connection of the request. -/
def runStmt (t : Turn E) (s : State E) (q : E.S) : Except E.ε (E.RS q) × State E :=
  match s.conn.judge .stmt t.verdict with
  | .done => match s.conn.status with
    | .active => match E.alone q s.clock t.o s.view with
      | .ok (r, d) => (.ok r, { s with view := d })
      | .error e => (.error e, { s with conn := s.conn.next .stmt .refused })
    | _ => match E.alone q t.o t.o s.db with
      | .ok (r, d) => (.ok r, { s with db := d })
      | .error e => (.error e, s)
  | v => (.error (if s.conn.status = .failed then E.inFailed else t.error),
      { s with conn := s.conn.next .stmt v })

/-- A statement that takes a connection of the pool for itself. -/
def runOnPool (t : Turn E) (s : State E) (q : E.S) : Except E.ε (E.RS q) × State E :=
  match t.verdict with
  | .done => match E.alone q t.o t.o s.db with
    | .ok (r, d) => (.ok r, { s with db := d })
    | .error e => (.error e, s)
  | _ => (.error t.error, s)

/-- One command, and what is left of it. -/
def run (t : Turn E) (s : State E) : (a : Act E) → a.Resp × State E
  | .acquire => (t.verdict = .done, { s with conn := .fresh })
  | .release => ((), s)
  | .begin =>
    let v := s.conn.judge .begin t.verdict
    let opens : Bool := v = .done && s.conn.status = .idle
    (v = .done, { s with
      conn := s.conn.next .begin v
      view := if opens then s.db else s.view
      clock := if opens then t.o else s.clock })
  | .setConfig tenantID =>
    let v := s.conn.judge (.setLocal tenantID) t.verdict
    (v = .done, { s with conn := s.conn.next (.setLocal tenantID) v })
  | .commit =>
    let v := s.conn.judge .commit t.verdict
    (v = .done, { s with
      conn := s.conn.next .commit v
      db := if goesThrough s.conn t then s.view else s.db })
  | .rollback =>
    let v := s.conn.judge .rollback t.verdict
    (v = .done, { s with conn := s.conn.next .rollback v })
  | .sql .conn q => runStmt t s q
  | .sql .pool q => runOnPool t s q
  -- No transaction object is ever put into the context of a request.
  | .sql .tx _ => (.error t.error, s)
  | .ext x => (E.answer t.o x, s)
  | .writeHeader code => ((), { s with response := s.response.writeHeader code.1 })
  | .write flushes => ((), { s with response := s.response.write flushes })

/-- One step of a request. -/
def step (env : Nat → Turn E) (s : State E) (a : Act E) : a.Resp × State E :=
  run (env s.turn) { s with turn := s.turn + 1 } a

/-- The context that `Auth` hands on: the tenant of the token, and nothing else. -/
def Context.ofToken (tenantID : String) : Context := ⟨tenantID, false, false⟩

/-- A request, from start to end. -/
def handle (env : Nat → Turn E) (tenantID : String) (next : Handler E) (d : E.D) :
    End × State E :=
  Prog.eval (step env) (tenantContext (.ofToken tenantID) next) (.new env d)

/--
**The status tells the truth about the database.** If the client is told that
the request went through, all effects of its statements are committed; otherwise
the database is what it was.
-/
def Truthful (env : Nat → Turn E) (tenantID : String) (next : Handler E) (d : E.D) : Prop :=
  let r := handle env tenantID next d
  if accepted (r.2.response.received r.1) then r.2.db = r.2.view else r.2.db = d

/-! ## The handler's part -/

variable {env : Nat → Turn E} {tenantID : String} {next : Handler E} {d : E.D}

/-- The request gets as far as its handler. -/
def Entered (env : Nat → Turn E) (tenantID : String) : Prop :=
  tenantID ≠ "" ∧ (env 0).verdict = .done ∧ (env 1).verdict = .done ∧ (env 2).verdict = .done

/-- What the handler finds: an open transaction of the tenant, and nothing written. -/
def atHandler (env : Nat → Turn E) (tenantID : String) (d : E.D) : State E :=
  ⟨d, ⟨false, .active, some tenantID⟩, d, (env 1).o, .new, 3⟩

/-- The run of the handler: the last status it has written, how it is left, and what it leaves. -/
def handlerRun (env : Nat → Turn E) (tenantID : String) (next : Handler E) (d : E.D) :
    (Nat × End) × State E :=
  Prog.eval (step env) (serve (Context.ofToken tenantID).setConn next 200)
    (atHandler env tenantID d)

/-- A handler changes nothing that is committed, and stays in its transaction. -/
def Contained (tenantID : String) (d : E.D) (s : State E) : Prop :=
  s.db = d ∧ s.conn.Within tenantID

theorem Contained.runStmt {t : Turn E} {s : State E} {q : E.S} (h : Contained tenantID d s) :
    Contained tenantID d (runStmt t s q).2 := by
  obtain ⟨hdb, hconn⟩ := h
  unfold Middleware.runStmt
  split
  · rename_i hdone
    split
    · split
      · exact ⟨hdb, hconn⟩
      · exact ⟨hdb, hconn.stmt⟩
    · -- Outside a transaction nothing is carried out.
      rename_i hstatus
      obtain ⟨hopen, _, hf⟩ := Conn.judge_done hdone
      rcases hconn with hclosed | ⟨hne, _⟩
      · exact nomatch hclosed.symm.trans hopen
      · cases hs : s.conn.status with
        | idle => exact absurd hs hne
        | active => exact absurd hs hstatus
        | failed => rcases hf hs with h | h <;> cases h
  · exact ⟨hdb, hconn.stmt⟩

theorem contained_serve {s : State E} {status : Nat} (h : Contained tenantID d s) :
    Contained tenantID d
      (Prog.eval (step env) (serve (Context.ofToken tenantID).setConn next status) s).2 := by
  induction next generalizing s status with
  | ret e => exact h
  | exec c k ih =>
    cases c with
    | sql q => exact ih _ (Contained.runStmt (s := { s with turn := s.turn + 1 }) h)
    | ext x => exact ih _ h
    | writeHeader code => exact ih _ h
    | write flushes => exact ih _ h

theorem contained_handlerRun : Contained tenantID d (handlerRun env tenantID next d).2 :=
  contained_serve ⟨rfl, Or.inr ⟨nofun, rfl⟩⟩

/-! ## The middleware around it -/

/-- The transaction of the request is committed. -/
def commits (env : Nat → Turn E) (h : (Nat × End) × State E) : Bool :=
  h.1.2 = .returned && h.1.1 < 400 && goesThrough h.2.conn (env h.2.turn)

/-- The deferred function leaves what is committed, and the response, as they are. -/
theorem eval_deferred {s : State E} {committed : Bool} {e : End} :
    (Prog.eval (step env) (deferred committed e) s).1 = e ∧
      (Prog.eval (step env) (deferred committed e) s).2.db = s.db ∧
      (Prog.eval (step env) (deferred committed e) s).2.view = s.view ∧
      (Prog.eval (step env) (deferred committed e) s).2.response = s.response := by
  cases committed <;> exact ⟨rfl, rfl, rfl, rfl⟩

theorem eval_act {α : Type} {a : Act E} {f : a.Resp → Request E α} {s : State E} :
    Prog.eval (step env) (act a >>= f) s =
      Prog.eval (step env) (f (step env s a).1) (step env s a).2 := Prog.eval_bind

/-- The commit, if the handler's run asks for one, decides what is committed. -/
theorem eval_commitOn {h : (Nat × End) × State E} :
    (Prog.eval (step env) (commitOn h.1.1 h.1.2) h.2).1.2 = h.1.2 ∧
      (Prog.eval (step env) (commitOn h.1.1 h.1.2) h.2).2.db =
        (if commits env h then h.2.view else h.2.db) ∧
      (Prog.eval (step env) (commitOn h.1.1 h.1.2) h.2).2.view = h.2.view ∧
      (Prog.eval (step env) (commitOn h.1.1 h.1.2) h.2).2.response = h.2.response := by
  obtain ⟨⟨status, e⟩, s⟩ := h
  cases e with
  | panicked => exact ⟨rfl, by simp [commits, commitOn], rfl, rfl⟩
  | returned =>
    by_cases hs : status < 400
    · simp only [commitOn, hs, if_true, commits, decide_true, Bool.true_and]
      exact ⟨rfl, rfl, rfl, rfl⟩
    · simp [commitOn, hs, commits]

/-- `BEGIN` and `set_config` lead to the handler. -/
theorem eval_transaction (h₁ : (env 1).verdict = .done) (h₂ : (env 2).verdict = .done) :
    Prog.eval (step env) (transaction (.ofToken tenantID) next)
        { State.new env d with turn := 1 } =
      Prog.eval (step env) (commitOn (handlerRun env tenantID next d).1.1
        (handlerRun env tenantID next d).1.2) (handlerRun env tenantID next d).2 := by
  have hbegin : step env { State.new env d with turn := 1 } .begin =
      (true, { atHandler env tenantID d with turn := 2, conn := ⟨false, .active, none⟩ }) := by
    simp [step, run, State.new, atHandler, h₁, Conn.judge, Conn.fresh, Conn.next]
  have hset : step env { atHandler env tenantID d with turn := 2, conn := ⟨false, .active, none⟩ }
      (.setConfig tenantID) = (true, atHandler env tenantID d) := by
    simp [step, run, atHandler, h₂, Conn.judge, Conn.next]
  unfold transaction
  rw [eval_act, hbegin]
  show Prog.eval (step env) (act (.setConfig tenantID) >>= _) _ = _
  rw [eval_act, hset]
  exact Prog.eval_bind

/-- Once a request has a connection, its transaction runs and the deferred function ends it. -/
theorem eval_tenantContext (hid : tenantID ≠ "") (h₀ : (env 0).verdict = .done) :
    handle env tenantID next d = Prog.eval (step env)
      (transaction (.ofToken tenantID) next >>= fun r => deferred r.1 r.2)
      { State.new env d with turn := 1 } := by
  have hacquire : step env (State.new env d) .acquire =
      (true, { State.new env d with turn := 1 }) := by
    simp [step, run, State.new, h₀]
  unfold handle tenantContext
  rw [if_neg (show ¬ (Context.ofToken tenantID).tenantID = "" from hid), eval_act, hacquire]
  rfl

/-- What a request leaves once it has got to its handler. -/
theorem handle_of_entered (h : Entered env tenantID) :
    (handle env tenantID next d).1 = (handlerRun env tenantID next d).1.2 ∧
      (handle env tenantID next d).2.db = (if commits env (handlerRun env tenantID next d)
        then (handlerRun env tenantID next d).2.view else d) ∧
      (handle env tenantID next d).2.view = (handlerRun env tenantID next d).2.view ∧
      (handle env tenantID next d).2.response =
        (handlerRun env tenantID next d).2.response := by
  obtain ⟨hid, h₀, h₁, h₂⟩ := h
  rw [eval_tenantContext hid h₀, Prog.eval_bind, eval_transaction h₁ h₂]
  obtain ⟨hdb, _⟩ := @contained_handlerRun E env tenantID next d
  generalize handlerRun env tenantID next d = run at hdb ⊢
  obtain ⟨he, hcommit, hview, hresponse⟩ := @eval_commitOn E env run
  generalize Prog.eval (step env) (commitOn run.1.1 run.1.2) run.2 = r at he hcommit hview hresponse ⊢
  obtain ⟨he', hdb', hview', hresponse'⟩ := @eval_deferred E env r.2 r.1.1 r.1.2
  rw [hdb] at hcommit
  exact ⟨he'.trans he, hdb'.trans hcommit, hview'.trans hview, hresponse'.trans hresponse⟩

/-- An error response is all that is left of a command that failed. -/
theorem eval_respondError {α : Type} {s : State E} {code : StatusCode} {a : α}
    (hr : s.response = .new) (hcode : 200 ≤ code.1) :
    (Prog.eval (step env) (respondError code >>= fun _ => pure a) s).1 = a ∧
      (Prog.eval (step env) (respondError code >>= fun _ => pure a) s).2.db = s.db ∧
      (Prog.eval (step env) (respondError code >>= fun _ => pure a) s).2.response =
        ⟨some code.1, false⟩ := by
  refine ⟨rfl, rfl, ?_⟩
  show (s.response.writeHeader code.1).write false = _
  rw [hr]
  have hfinal : Response.informational code.1 = false := by
    unfold Response.informational
    simp [Nat.not_lt.mpr hcode]
  simp [Response.writeHeader, Response.write, Response.new, hfinal]

/-- A transaction that cannot be set up is answered with 500. -/
theorem eval_transaction_refused
    (h : ¬ ((env 1).verdict = .done ∧ (env 2).verdict = .done)) :
    (Prog.eval (step env) (transaction (.ofToken tenantID) next)
        { State.new env d with turn := 1 }).1 = (false, .returned) ∧
      (Prog.eval (step env) (transaction (.ofToken tenantID) next)
        { State.new env d with turn := 1 }).2.db = d ∧
      (Prog.eval (step env) (transaction (.ofToken tenantID) next)
        { State.new env d with turn := 1 }).2.response = ⟨some 500, false⟩ := by
  unfold transaction
  rw [eval_act]
  by_cases h₁ : (env 1).verdict = .done
  · have h₂ : (env 2).verdict ≠ .done := fun h₂ => h ⟨h₁, h₂⟩
    have hbegin : step env { State.new env d with turn := 1 } .begin =
        (true, { atHandler env tenantID d with turn := 2, conn := ⟨false, .active, none⟩ }) := by
      simp [step, run, State.new, atHandler, h₁, Conn.judge, Conn.fresh, Conn.next]
    have hset : (step env
        { atHandler env tenantID d with turn := 2, conn := ⟨false, .active, none⟩ }
        (.setConfig tenantID)).1 = false := by
      simp [step, run, atHandler, h₂, Conn.judge_of_sound]
    rw [hbegin]
    show (Prog.eval (step env) (act (.setConfig tenantID) >>= _) _).1 = _ ∧
      (Prog.eval (step env) (act (.setConfig tenantID) >>= _) _).2.db = _ ∧
      (Prog.eval (step env) (act (.setConfig tenantID) >>= _) _).2.response = _
    rw [eval_act, hset]
    exact eval_respondError rfl (by decide)
  · have hbegin : (step env { State.new env d with turn := 1 } .begin).1 = false := by
      simp [step, run, State.new, h₁, Conn.judge_of_sound, Conn.fresh]
    rw [hbegin]
    exact eval_respondError rfl (by decide)

/-- A request that does not get to its handler is refused and changes nothing. -/
theorem handle_of_not_entered (h : ¬ Entered env tenantID) :
    (handle env tenantID next d).1 = .returned ∧ (handle env tenantID next d).2.db = d ∧
      accepted ((handle env tenantID next d).2.response.received .returned) = false := by
  by_cases hid : tenantID = ""
  · subst hid
    exact ⟨rfl, rfl, rfl⟩
  by_cases h₀ : (env 0).verdict = .done
  · rw [eval_tenantContext hid h₀, Prog.eval_bind]
    obtain ⟨hret, hdb, hresponse⟩ := @eval_transaction_refused E env tenantID next d fun hv => h ⟨hid, h₀, hv⟩
    generalize Prog.eval (step env) (transaction (.ofToken tenantID) next) _ = r at hret hdb hresponse ⊢
    obtain ⟨he, hdb', _, hresponse'⟩ := @eval_deferred E env r.2 r.1.1 r.1.2
    refine ⟨he.trans (congrArg Prod.snd hret), hdb'.trans hdb, ?_⟩
    rw [hresponse', hresponse]
    rfl
  · have hacquire : (step env (State.new env d) .acquire).1 = false := by
      simp [step, run, State.new, h₀]
    unfold handle tenantContext
    rw [if_neg (show ¬ (Context.ofToken tenantID).tenantID = "" from hid), eval_act, hacquire]
    obtain ⟨he, hdb, hresponse⟩ := @eval_respondError E env End
      (step env (State.new env d) .acquire).2 ⟨500, by decide⟩ .returned
      (by simp [step, run, State.new, h₀]) (by decide)
    refine ⟨he, hdb.trans ?_, ?_⟩
    · simp [step, run, State.new, h₀]
    · exact (congrArg (fun r : Response => accepted (r.received .returned)) hresponse).trans rfl

/--
**When the status tells the truth**, exactly: the handler has no effects, or the
client is told that the request went through if and only if the transaction is
committed. A request that does not get to its handler is always told the truth.
-/
theorem truthful_iff : Truthful env tenantID next d ↔ (Entered env tenantID →
    (handlerRun env tenantID next d).2.view = d ∨
      accepted ((handlerRun env tenantID next d).2.response.received
        (handlerRun env tenantID next d).1.2) = commits env (handlerRun env tenantID next d)) := by
  unfold Truthful
  dsimp only
  by_cases hentered : Entered env tenantID
  · obtain ⟨he, hdb, hview, hresponse⟩ := @handle_of_entered E env tenantID next d hentered
    rw [he, hdb, hview, hresponse]
    generalize handlerRun env tenantID next d = run
    simp only [hentered, true_implies]
    cases accepted (run.2.response.received run.1.2) <;> cases commits env run <;>
      simp [eq_comm]
  · obtain ⟨he, hdb, hrefused⟩ := @handle_of_not_entered E env tenantID next d hentered
    rw [he, hrefused]
    simp [hentered, hdb]

/-! ## The endpoints -/

/-- A handler that answers what its service returns. -/
def handlerOf (responder : Responder) : Program Outcome → Handler server
  | .ret r =>
    if h : 100 ≤ statusOf responder r ∧ statusOf responder r ≤ 999 then
      .exec (.writeHeader ⟨statusOf responder r, h⟩) fun _ => .exec (.write false) fun _ =>
        .ret .returned
    else .ret .panicked
  | .exec (.sql q) k => .exec (.sql q) fun r => handlerOf responder (k r)
  | .exec (.ext x) k => .exec (.ext x) fun r => handlerOf responder (k r)
  -- A service of a tenant leaves the transaction to the middleware.
  | .exec .begin k => handlerOf responder (k (.ok ()))
  | .exec .commit k => handlerOf responder (k (.ok true))
  | .exec .rollback k => handlerOf responder (k (.ok ()))

/-- The handler of an endpoint, behind `RequireRole`. -/
def handler (actor : Actor) (e : Endpoint) : Handler server :=
  handlerOf e.responder (requireRole actor e.roles (e.service actor)).run

theorem statusOf_range (e : Endpoint) (r : Outcome) :
    200 ≤ statusOf e.responder r ∧ statusOf e.responder r ≤ 999 := by
  have hdomain : ∀ err, (respondDomainError err).1 ≤ 999 := by
    intro err
    unfold respondDomainError
    split <;> decide
  have hattachment : ∀ err, (respondAttachmentError err).1 ≤ 999 := by
    intro err
    unfold respondAttachmentError
    split
    · decide
    · decide
    · exact hdomain _
  cases r with
  | ok p => exact ⟨Nat.le_refl _, show 200 ≤ 999 by decide⟩
  | error err =>
    refine ⟨Nat.le_trans (by decide) (e.responder.refuses err), ?_⟩
    cases e <;> first
      | exact hdomain err
      | exact hattachment err

theorem response_runStmt {E : Engine} {t : Turn E} {s : State E} {q : E.S} :
    (runStmt t s q).2.response = s.response := by
  unfold runStmt
  split
  · split
    · split <;> rfl
    · split <;> rfl
  · rfl

section

variable {env : Nat → Turn server} {tenantID : String} {d : Database} {actor : Actor}
  {e : Endpoint}

/-- The handler of an endpoint writes one status, the one that is remembered. -/
theorem response_serve {p : Program Outcome} {s : State server} {status : Nat}
    (hs : s.response = .new) :
    (Prog.eval (step env) (serve (Context.ofToken tenantID).setConn (handlerOf e.responder p)
        status) s).1.2 = .returned ∧
      (Prog.eval (step env) (serve (Context.ofToken tenantID).setConn (handlerOf e.responder p)
        status) s).2.response.header =
      some (Prog.eval (step env) (serve (Context.ofToken tenantID).setConn
        (handlerOf e.responder p) status) s).1.1 := by
  induction p generalizing s with
  | ret r =>
    obtain ⟨hle, hge⟩ := statusOf_range e r
    unfold handlerOf
    rw [dif_pos ⟨Nat.le_trans (by decide) hle, hge⟩]
    refine ⟨rfl, ?_⟩
    show ((s.response.writeHeader (statusOf e.responder r)).write false).header =
      some (statusOf e.responder r)
    rw [hs]
    have hfinal : Response.informational (statusOf e.responder r) = false := by
      unfold Response.informational
      simp [Nat.not_lt.mpr hle]
    simp [Response.writeHeader, Response.write, Response.new, hfinal]
  | exec c k ih =>
    cases c with
    | sql q => exact ih _ (response_runStmt.trans hs)
    | ext x => exact ih _ hs
    | begin => exact ih _ hs
    | commit => exact ih _ hs
    | rollback => exact ih _ hs

/--
**An endpoint tells the truth**, exactly if it has no effects, answers with an
error, or its transaction goes through: a lookup that fails after a change is
enough to make a success a lie, and so is a `COMMIT` that fails.
-/
theorem truthful_handler_iff : Truthful env tenantID (handler actor e) d ↔
    (Entered env tenantID → (handlerRun env tenantID (handler actor e) d).2.view = d ∨
      400 ≤ (handlerRun env tenantID (handler actor e) d).1.1 ∨
      goesThrough (handlerRun env tenantID (handler actor e) d).2.conn
        (env (handlerRun env tenantID (handler actor e) d).2.turn) = true) := by
  rw [truthful_iff]
  refine imp_congr Iff.rfl (or_congr Iff.rfl ?_)
  obtain ⟨hret, hheader⟩ := @response_serve env tenantID e
    (requireRole actor e.roles (e.service actor)).run (atHandler env tenantID d) 200 rfl
  change (handlerRun env tenantID (handler actor e) d).1.2 = _ at hret
  change (handlerRun env tenantID (handler actor e) d).2.response.header =
    some (handlerRun env tenantID (handler actor e) d).1.1 at hheader
  generalize handlerRun env tenantID (handler actor e) d = run at hret hheader ⊢
  simp only [hret, hheader, Response.received, Option.getD_some, accepted, Option.any_some, commits,
    decide_true, Bool.true_and]
  by_cases hlt : run.1.1 < 400
  · simp [hlt, Nat.not_le.mpr hlt]
  · simp [hlt, Nat.not_lt.mp hlt]

end

end Middleware

/-! ## An approval that is lost -/

namespace Sample

/-- The owner's report is submitted. -/
def awaiting : Database :=
  { database with
    reports := Table.empty.put
      { report with status := .submitted, submittedBy := some 20, submittedAt := some 5 } }

/-- All goes well except for the command at turn `n`, which the server refuses. -/
def refusedAt (n : Nat) (turn : Nat) : Middleware.Turn server :=
  ⟨if turn = n then .refused else .done, false, .at (100 + turn), .connectionFailure⟩

end Sample

namespace Middleware

/-- At turns 7 and 8 the names of the users are looked up for the response, after the report was
updated; turn 11 is the `COMMIT`. -/
theorem lost_of_refusedAt : ∀ turn ∈ [7, 8, 11],
    ¬ Truthful (Sample.refusedAt turn) "10" (handler Sample.approver (.approveReport 1 none 5))
      Sample.awaiting := by
  have hrun : ∀ turn ∈ [7, 8, 11],
      let r := handle (Sample.refusedAt turn) "10"
        (handler Sample.approver (.approveReport 1 none 5)) Sample.awaiting
      accepted (r.2.response.received r.1) = true ∧
        (r.2.db.reports.find 1).map (·.status) = some .submitted ∧
        (r.2.view.reports.find 1).map (·.status) = some .approved := by
    decide +kernel
  intro turn hturn htruthful
  obtain ⟨haccepted, hdb, hview⟩ := hrun turn hturn
  unfold Truthful at htruthful
  dsimp only at htruthful
  rw [if_pos haccepted] at htruthful
  rw [htruthful, hview] at hdb
  cases hdb

/-- **The approval is lost, and the approver is told that it went through**: after a lookup that
is refused, and after a refused `COMMIT`. -/
theorem not_truthful_of_refusedAt :
    ¬ Truthful (Sample.refusedAt 7) "10" (handler Sample.approver (.approveReport 1 none 5))
        Sample.awaiting ∧
      ¬ Truthful (Sample.refusedAt 11) "10" (handler Sample.approver (.approveReport 1 none 5))
        Sample.awaiting :=
  ⟨lost_of_refusedAt 7 (by decide), lost_of_refusedAt 11 (by decide)⟩

end Middleware

end ExpenseSaas
