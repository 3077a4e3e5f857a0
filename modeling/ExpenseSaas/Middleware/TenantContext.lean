import ExpenseSaas.ReadCommitted.Solo

/-!
# TenantContext

`internal/middleware/tenant.go`, with the response writer of `logger.go` and the
choice of connection of `repository/postgres/db.go`.

A handler is any program that issues statements through `queries(ctx, pool)`,
calls the outside, and writes a response; it may end in a panic. `serve` is the
handler behind the `responseWriter` that remembers the status, and
`tenantContext` is the middleware around it. Its deferred function runs on every
way out, panics included.

The middleware sees a connection only as something that does what it is told or
reports an error, so that is all its program is told. What the server makes of
the commands is in `Connections.lean` and `Status.lean`.
-/

namespace ExpenseSaas

open ReadCommitted

namespace Middleware

/-- A status code `WriteHeader` accepts; it panics on any other. -/
abbrev StatusCode : Type := { n : Nat // 100 ≤ n ∧ n ≤ 999 }

/-- How a handler is left. -/
inductive End where
  | returned
  | panicked
  deriving DecidableEq, Repr

/-- What a handler does. -/
inductive HandlerAct (E : Engine) where
  /-- A statement, through `queries(ctx, pool)`. -/
  | sql (q : E.S)
  | ext (x : E.X)
  | writeHeader (code : StatusCode)
  /-- A part of the body; `flushes` when it pushes what was written so far to the client. -/
  | write (flushes : Bool)

/-- And what it is told. -/
@[reducible] def HandlerAct.Resp {E : Engine} : HandlerAct E → Type
  | .sql q => Except E.ε (E.RS q)
  | .ext x => E.RX x
  | .writeHeader _ => Unit
  | .write _ => Unit

/-- A handler. -/
abbrev Handler (E : Engine) : Type := Prog (HandlerAct E) HandlerAct.Resp End

/-- What a statement runs on. -/
inductive DBTX where
  | tx
  | conn
  | pool
  deriving DecidableEq, Repr

/-- The request context: the tenant of the token, and whether a transaction or a connection was
put in. -/
structure Context where
  tenantID : String
  tx : Bool
  conn : Bool

/-- `SetConn`. -/
def Context.setConn (ctx : Context) : Context := { ctx with conn := true }

/-- `queries(ctx, pool)`: the transaction, else the connection, else the pool. -/
def queries (ctx : Context) : DBTX := if ctx.tx then .tx else if ctx.conn then .conn else .pool

/-- What a request does, as the pool, the connection and the client see it. -/
inductive Act (E : Engine) where
  /-- `pool.Acquire`. -/
  | acquire
  /-- `conn.Release`. -/
  | release
  /-- `conn.Exec(ctx, "BEGIN")`. -/
  | begin
  /-- `conn.Exec(ctx, "SELECT set_config('app.current_tenant', $1, true)", tenantID)`. -/
  | setConfig (tenantID : String)
  /-- `conn.Exec(ctx, "COMMIT")`. -/
  | commit
  /-- `conn.Exec(ctx, "ROLLBACK")`. -/
  | rollback
  | sql (db : DBTX) (q : E.S)
  | ext (x : E.X)
  | writeHeader (code : StatusCode)
  | write (flushes : Bool)

/-- And what it is told; of the middleware's own commands, whether there was no error. -/
@[reducible] def Act.Resp {E : Engine} : Act E → Type
  | .acquire => Bool
  | .release => Unit
  | .begin => Bool
  | .setConfig _ => Bool
  | .commit => Bool
  | .rollback => Bool
  | .sql _ q => Except E.ε (E.RS q)
  | .ext x => E.RX x
  | .writeHeader _ => Unit
  | .write _ => Unit

/-- The program of a request, or of a part of it. -/
abbrev Request (E : Engine) (α : Type) : Type := Prog (Act E) Act.Resp α

variable {E : Engine}

/-- Do one thing. -/
def act (a : Act E) : Request E a.Resp := Prog.call a

/-- `RespondError`; the body is short and stays in the buffer. -/
def respondError (code : StatusCode) : Request E Unit := do
  let _ : Unit ← act (.writeHeader code)
  act (.write false)

/-- `next.ServeHTTP(wrapped, ...)`: the handler, and the status `wrapped` remembers. -/
def serve (ctx : Context) : Handler E → Nat → Request E (Nat × End)
  | .ret e, status => .ret (status, e)
  | .exec (.sql q) k, status => .exec (.sql (queries ctx) q) fun r => serve ctx (k r) status
  | .exec (.ext x) k, status => .exec (.ext x) fun r => serve ctx (k r) status
  | .exec (.writeHeader code) k, _ => .exec (.writeHeader code) fun r => serve ctx (k r) code.1
  | .exec (.write flushes) k, status => .exec (.write flushes) fun r => serve ctx (k r) status

/-- What follows `ServeHTTP`: `COMMIT`, if the handler has returned and the status is no error. -/
def commitOn (status : Nat) : End → Request E (Bool × End)
  | .panicked => pure (false, .panicked)
  | .returned =>
    if status < 400 then do
      let committed : Bool ← act .commit
      pure (committed, .returned)
    else pure (false, .returned)

/-- The part between `Acquire` and the deferred function, and whether it has set `committed`. -/
def transaction (ctx : Context) (next : Handler E) : Request E (Bool × End) := do
  let begun : Bool ← act .begin
  if !begun then do
    respondError ⟨500, by decide⟩
    pure (false, .returned)
  else do
    let set : Bool ← act (.setConfig ctx.tenantID)
    if !set then do
      respondError ⟨500, by decide⟩
      pure (false, .returned)
    else do
      let r ← serve ctx.setConn next 200
      commitOn r.1 r.2

/-- The deferred function: an error of `ROLLBACK` is only logged, and a panic goes on. -/
def deferred (committed : Bool) (e : End) : Request E End := do
  if committed then do
    let _ : Unit ← act .release
    pure e
  else do
    let _ : Bool ← act .rollback
    let _ : Unit ← act .release
    pure e

/-- **`TenantContext`.** -/
def tenantContext (ctx : Context) (next : Handler E) : Request E End :=
  if ctx.tenantID = "" then do
    respondError ⟨401, by decide⟩
    pure .returned
  else do
    let acquired : Bool ← act .acquire
    if !acquired then do
      respondError ⟨500, by decide⟩
      pure .returned
    else do
      let r ← transaction ctx next
      deferred r.1 r.2

end Middleware

end ExpenseSaas
