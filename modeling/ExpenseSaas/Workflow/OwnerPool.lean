import ExpenseSaas.Runs.Schedules
import Mathlib.Algebra.GroupWithZero.Nat

/-!
# The owner pool

The calls of `auth_service.go` take their connections from a pool of five, and a
call that asks for one waits until there is one. `ExecutePasswordReset` takes a
connection for its lookup and asks for another one, for its transaction, while it
holds the first (`PoolAsks`); no other call asks for a connection while it holds
one. So the pool is deadlocked when five password resets have come that far
(`deadlocked_of_fiveResets`), and never as long as at most four of them are
between their first connection and their second (`not_deadlocked_of_fewResets`).

How many connections a call holds is read off its history.
-/

namespace ExpenseSaas

open ReadCommitted Sql

/-- `ownerPoolCfg.MaxConns`. -/
def maxConns : Nat := 5

/-- The call is handed a connection. -/
def handsOut : Event Command Command.Resp → Bool
  | ⟨.ext .acquire, .ok _⟩ => true
  | _ => false

/-- The call gives a connection back. -/
def handsBack : Event Command Command.Resp → Bool
  | ⟨.ext .release, _⟩ => true
  | _ => false

/-- How many connections a call was handed. -/
def acquired (tr : Trace) : Nat := tr.countP handsOut

/-- And how many it has given back. -/
def released (tr : Trace) : Nat := tr.countP handsBack

/-- Both. -/
structure Uses (a b : Nat) (tr : Trace) : Prop where
  acquired : acquired tr = a
  released : released tr = b

/-- The call executes a password reset. -/
def Call.isReset : Call → Bool
  | .executePasswordReset .. => true
  | _ => false

/-- The call is one of those that use the pool. -/
def Call.usesOwnerPool : Call → Bool
  | .tenant .. => false
  | _ => true

/--
A call that asks for a connection holds none, or it is a password reset with its
first one. A call that gives a connection back holds one.
-/
def PoolAsks (call : Call) (tr : Trace) : Command → Prop
  | .ext .acquire => released tr = acquired tr ∨ (call.isReset = true ∧ Uses 1 0 tr)
  | .ext .release => released tr < acquired tr
  | _ => True

/-- The contract of a client of the pool. -/
abbrev poolContract (call : Call) : Contract Command Command.Resp :=
  server.contract (PoolAsks call)

/-- The command does not concern the pool. -/
def Poolless : Command → Prop
  | .ext .acquire => False
  | .ext .release => False
  | _ => True

section

variable {α β : Type} {call : Call} {tr : Trace} {a b : Nat}

theorem uses_nil : Uses 0 0 [] := ⟨rfl, rfl⟩

theorem acquired_append {ev : Event Command Command.Resp} :
    acquired (tr ++ [ev]) = acquired tr + (handsOut ev).toNat := by
  unfold acquired
  rw [List.countP_append, List.countP_singleton]
  cases handsOut ev <;> rfl

theorem released_append {ev : Event Command Command.Resp} :
    released (tr ++ [ev]) = released tr + (handsBack ev).toNat := by
  unfold released
  rw [List.countP_append, List.countP_singleton]
  cases handsBack ev <;> rfl

theorem uses_append {ev : Event Command Command.Resp} : Uses a b (tr ++ [ev]) ↔
    acquired tr + (handsOut ev).toNat = a ∧ released tr + (handsBack ev).toNat = b := by
  rw [← acquired_append, ← released_append]
  exact ⟨fun h => ⟨h.acquired, h.released⟩, fun h => ⟨h.1, h.2⟩⟩

theorem uses_poolless {c : Command} (hc : Poolless c) {r : Command.Resp c} :
    Uses a b (tr ++ [⟨c, r⟩]) ↔ Uses a b tr := by
  have hout : handsOut ⟨c, r⟩ = false := by
    cases c with
    | ext x => cases x <;> first | rfl | exact hc.elim
    | _ => rfl
  have hback : handsBack ⟨c, r⟩ = false := by
    cases c with
    | ext x => cases x <;> first | rfl | exact hc.elim
    | _ => rfl
  rw [uses_append, hout, hback]
  exact ⟨fun h => ⟨h.1, h.2⟩, fun h => ⟨h.acquired, h.released⟩⟩

theorem Uses.acquire (h : Uses a b tr) {u : Unit} :
    Uses (a + 1) b (tr ++ [⟨.ext .acquire, .ok u⟩]) :=
  uses_append.mpr ⟨congrArg (· + 1) h.acquired, h.released⟩

theorem Uses.refused (h : Uses a b tr) {e : GoError} :
    Uses a b (tr ++ [⟨.ext .acquire, .error e⟩]) :=
  uses_append.mpr ⟨h.acquired, h.released⟩

theorem Uses.release (h : Uses a b tr) {u : Unit} :
    Uses a (b + 1) (tr ++ [⟨.ext .release, u⟩]) :=
  uses_append.mpr ⟨h.acquired, congrArg (· + 1) h.released⟩

/-- A connection is handed out as the answer to a request for one. -/
theorem eq_of_handsOut {c : Command} {r : Command.Resp c} (h : handsOut ⟨c, r⟩ = true) :
    ∃ u : Unit, (⟨c, r⟩ : Event Command Command.Resp) = ⟨.ext .acquire, .ok u⟩ := by
  unfold handsOut at h
  split at h
  · rename_i u hev
    exact ⟨u, hev⟩
  · cases h

/-! ### Services that leave the pool alone -/

theorem poolless_sql {q : Stmt} : Svc.Only Poolless (sql q) :=
  Svc.only_bind (Svc.only_call trivial) fun _ => Svc.only_ofExcept

theorem poolless_autocommit {q : Stmt} : Svc.Only Poolless (autocommit q) := by
  refine Svc.only_bind (Svc.only_call trivial) fun _ => Svc.only_bind Svc.only_ofExcept fun _ =>
    Svc.only_bind (Svc.only_call trivial) fun r => ?_
  cases r with
  | ok x => exact Svc.only_bind (Svc.only_call trivial) fun _ => Svc.only_bind Svc.only_ofExcept fun _ =>
      Svc.only_pure
  | error e => exact Svc.only_bind (Svc.only_call trivial) fun _ => Svc.only_throw

theorem poolless_exec (db : DBTX) {q : Stmt} : Svc.Only Poolless (db.exec q) := by
  cases db with
  | tx => exact poolless_sql
  | conn => exact poolless_autocommit

theorem poolless_orNoRows {R : Type} {e : DomainError} {row : Option R} :
    Svc.Only Poolless (orNoRows e row) := by
  cases row with
  | none => exact Svc.only_throw
  | some r => exact Svc.only_pure

/-- A row that is looked up. -/
theorem poolless_row (db : DBTX) {R : Type} {q : Stmt} {context : String} {e : DomainError}
    {g : q.Result → Option R} :
    Svc.Only Poolless (do let row ← errorf context (db.exec q); orNoRows e (g row)) :=
  Svc.only_bind (Svc.only_mapError (poolless_exec db)) fun _ => poolless_orNoRows

theorem poolless_notFoundIs {e : DomainError} {context : String} {x : Service α}
    (h : Svc.Only Poolless x) : Svc.Only Poolless (notFoundIs e context x) := by
  refine Svc.only_bind (Svc.only_attempt h) fun r => ?_
  cases r with
  | ok a => exact Svc.only_pure
  | error err =>
    show Svc.Only Poolless (if _ then _ else _)
    split
    · exact Svc.only_throw
    · exact Svc.only_throw

theorem poolless_generateAccessToken {u t : UUID} {role : Role} :
    Svc.Only Poolless (generateAccessToken u t role) :=
  Svc.only_bind (Svc.only_call trivial) fun _ => Svc.only_bind (Svc.only_call trivial) fun _ =>
    Svc.only_bind (Svc.only_call trivial) fun _ =>
      Svc.only_bind (Svc.only_mapError Svc.only_ofExcept) fun _ => Svc.only_pure

theorem poolless_generateRefreshToken {u : UUID} : Svc.Only Poolless (generateRefreshToken u) :=
  Svc.only_bind (Svc.only_call trivial) fun _ => Svc.only_bind (Svc.only_call trivial) fun _ =>
    Svc.only_bind (Svc.only_call trivial) fun _ =>
      Svc.only_bind (Svc.only_mapError Svc.only_ofExcept) fun _ => Svc.only_pure

theorem poolless_verifyRefreshToken {token : RefreshTokenText} :
    Svc.Only Poolless (verifyRefreshToken token) := by
  refine Svc.only_bind (Svc.only_call trivial) fun _ => ?_
  split
  · exact Svc.only_throw
  · split
    · exact Svc.only_throw
    · split
      · exact Svc.only_throw
      · exact Svc.only_pure

theorem poolless_hashPassword {password : String} : Svc.Only Poolless (hashPassword password) := by
  unfold hashPassword
  split
  · exact Svc.only_throw
  · exact Svc.only_bind (Svc.only_call trivial) fun _ =>
      Svc.only_bind (Svc.only_mapError Svc.only_ofExcept) fun _ => Svc.only_pure

theorem poolless_issueRefreshToken (db : DBTX) {u : UUID} {generate verify save : String} :
    Svc.Only Poolless (AuthService.issueRefreshToken db u generate verify save) :=
  Svc.only_bind (Svc.only_mapError poolless_generateRefreshToken) fun _ =>
    Svc.only_bind (Svc.only_mapError poolless_verifyRefreshToken) fun _ =>
      Svc.only_bind (Svc.only_call trivial) fun _ =>
        Svc.only_bind (Svc.only_mapError (Svc.only_mapError (poolless_exec db))) fun _ => Svc.only_pure

theorem poolless_createUser (db : DBTX) {email name : String} {passwordHash : PasswordHash} :
    Svc.Only Poolless (UserRepo.create db email name passwordHash) := by
  refine Svc.only_bind (Svc.only_attempt (poolless_exec db)) fun r => ?_
  cases r with
  | ok u => exact Svc.only_pure
  | error e =>
    show Svc.Only Poolless (if _ then _ else _)
    split
    · exact Svc.only_throw
    · exact Svc.only_throw

theorem poolless_signupTx {params : SignupParams} {h : PasswordHash} :
    Svc.Only Poolless (AuthService.signupTx params h) :=
  Svc.only_bind (Svc.only_mapError (Svc.only_mapError (poolless_exec .tx))) fun _ =>
    Svc.only_bind (Svc.only_mapError (poolless_createUser .tx)) fun _ =>
      Svc.only_bind (Svc.only_mapError (Svc.only_mapError (poolless_exec .tx))) fun _ =>
        Svc.only_bind (poolless_issueRefreshToken .tx) fun _ => Svc.only_pure

theorem poolless_emailTaken {email : String} : Svc.Only Poolless (AuthService.emailTaken email) := by
  refine Svc.only_bind (Svc.only_attempt (poolless_row .conn)) fun r => ?_
  cases r with
  | ok u => exact Svc.only_pure
  | error e =>
    show Svc.Only Poolless (if _ then _ else _)
    split
    · exact Svc.only_pure
    · exact Svc.only_throw

theorem poolless_loginConn {user : User} : Svc.Only Poolless (AuthService.loginConn user) :=
  Svc.only_bind (poolless_notFoundIs (poolless_row .conn)) fun _ =>
    Svc.only_bind (Svc.only_mapError (poolless_row .conn)) fun _ =>
      Svc.only_bind (Svc.only_mapError poolless_generateAccessToken) fun _ =>
        Svc.only_bind (poolless_issueRefreshToken .conn) fun _ => Svc.only_pure

theorem poolless_rotate {c : RefreshTokenClaims} : Svc.Only Poolless (AuthService.rotate c) :=
  Svc.only_bind (Svc.only_mapError (Svc.only_mapError (poolless_exec .conn))) fun _ =>
    Svc.only_bind (Svc.only_mapError (poolless_row .conn)) fun _ =>
      Svc.only_bind (Svc.only_mapError (poolless_row .conn)) fun _ =>
        Svc.only_bind (Svc.only_mapError (poolless_row .conn)) fun _ =>
          Svc.only_bind (Svc.only_mapError poolless_generateAccessToken) fun _ =>
            Svc.only_bind (poolless_issueRefreshToken .conn) fun _ => Svc.only_pure

theorem poolless_refreshConn {c : RefreshTokenClaims} : Svc.Only Poolless (AuthService.refreshConn c) := by
  refine Svc.only_bind (poolless_notFoundIs (poolless_row .conn)) fun stored => ?_
  split
  · exact Svc.only_bind (Svc.only_attempt (Svc.only_mapError (poolless_exec .conn))) fun _ => Svc.only_throw
  · exact poolless_rotate

theorem poolless_logoutConn {c : RefreshTokenClaims} : Svc.Only Poolless (AuthService.logoutConn c) := by
  refine Svc.only_bind (poolless_notFoundIs (poolless_row .conn)) fun stored => ?_
  split
  · exact Svc.only_throw
  · exact Svc.only_mapError (Svc.only_mapError (poolless_exec .conn))

theorem poolless_requestPasswordResetConn {email : String} :
    Svc.Only Poolless (AuthService.requestPasswordResetConn email) := by
  refine Svc.only_bind (Svc.only_attempt (poolless_row .conn)) fun r => ?_
  cases r with
  | ok user =>
    exact Svc.only_bind (Svc.only_call trivial) fun _ =>
      Svc.only_bind (Svc.only_mapError Svc.only_ofExcept) fun _ =>
        Svc.only_bind (Svc.only_call trivial) fun _ =>
          Svc.only_bind (Svc.only_mapError (Svc.only_mapError (poolless_exec .conn))) fun _ => Svc.only_pure
  | error e =>
    show Svc.Only Poolless (if _ then _ else _)
    split
    · exact Svc.only_pure
    · exact Svc.only_throw

theorem poolless_executePasswordResetTx {x : PasswordResetToken} {h : PasswordHash} :
    Svc.Only Poolless (AuthService.executePasswordResetTx x h) :=
  Svc.only_bind (Svc.only_mapError (Svc.only_mapError (poolless_exec .tx))) fun _ =>
    Svc.only_bind (Svc.only_mapError (Svc.only_mapError (poolless_exec .tx))) fun _ =>
      Svc.only_mapError (Svc.only_mapError (poolless_exec .tx))

/-! ### Services that take connections -/

theorem poolAsks_of_poolless {c : Command} (hc : Poolless c) : PoolAsks call tr c := by
  cases c with
  | ext x => cases x <;> trivial
  | _ => trivial

theorem ends_poolless {x : Service α} (hx : Svc.Only Poolless x) (h : Uses a b tr) :
    Svc.ends (poolContract call) tr x fun tr' _ => Uses a b tr' := by
  exact Prog.wp_of_only_inv (I := Uses a b) hx (fun _ _ _ hc => poolAsks_of_poolless hc)
    (fun _ _ _ h hc _ => (uses_poolless hc).mpr h) h fun _ _ h => h

/-- What comes first leaves the pool alone. -/
theorem ends_poolless_bind {x : Service β} {f : β → Service α} {Q : Trace → Except GoError α → Prop}
    (hx : Svc.Only Poolless x) (h : Uses a b tr) (herror : ∀ tr' e, Uses a b tr' → Q tr' (.error e))
    (hf : ∀ tr' y, Uses a b tr' → Svc.ends (poolContract call) tr' (f y) Q) :
    Svc.ends (poolContract call) tr (x >>= f) Q := by
  rw [Svc.ends_bind]
  refine Svc.ends_mono (ends_poolless hx h) fun tr' r hr => ?_
  cases r with
  | ok y => exact hf tr' y hr
  | error e => exact herror tr' e hr

/-- A connection that was asked for: it is handed out, or the service ends here. -/
theorem ends_acquire {context : String} {f : Unit → Service α} {Q : Trace → Except GoError α → Prop}
    (h : Uses a b tr) (hask : PoolAsks call tr (.ext .acquire))
    (herror : ∀ tr' e, Uses a b tr' → Q tr' (.error e))
    (hf : ∀ tr' u, Uses (a + 1) b tr' → Svc.ends (poolContract call) tr' (f u) Q) :
    Svc.ends (poolContract call) tr (ext .acquire >>= fun conn => errorf context (orFail conn) >>= f) Q := by
  unfold ext ExpenseSaas.call
  rw [Svc.ends_bind, Svc.ends_call]
  refine ⟨hask, fun conn _ => ?_⟩
  cases conn with
  | ok u => exact hf _ u h.acquire
  | error e => exact herror _ _ h.refused

/-- A connection that is given back. -/
theorem ends_release {f : Unit → Service α} {Q : Trace → Except GoError α → Prop} (h : Uses a b tr)
    (hlt : b < a) (hf : ∀ tr' u, Uses a (b + 1) tr' → Svc.ends (poolContract call) tr' (f u) Q) :
    Svc.ends (poolContract call) tr (ext .release >>= f) Q := by
  unfold ext ExpenseSaas.call
  rw [Svc.ends_bind, Svc.ends_call]
  refine ⟨?_, fun u _ => hf _ u h.release⟩
  show released tr < acquired tr
  rw [h.released, h.acquired]
  exact hlt

/-- The call has given back what it was handed. -/
def HoldsNone (tr : Trace) : Prop := ∃ n, Uses n n tr

theorem Uses.holdsNone (h : Uses a a tr) : HoldsNone tr := ⟨a, h⟩

theorem Uses.mayAcquire (h : Uses a a tr) : PoolAsks call tr (.ext .acquire) :=
  Or.inl (h.released.trans h.acquired.symm)

theorem ends_ownerConn {context : String} {body : Service α} (h : Uses a a tr)
    (hbody : ∀ tr', Uses (a + 1) a tr' →
      Svc.ends (poolContract call) tr' body fun tr'' _ => ∃ n, Uses (n + 1) n tr'') :
    Svc.ends (poolContract call) tr (withConn context body) fun tr' _ => HoldsNone tr' := by
  refine ends_acquire h h.mayAcquire (fun _ _ h => h.holdsNone) fun tr₁ _ h₁ => ?_
  rw [Svc.ends_bind, Svc.ends_attempt]
  refine Svc.ends_mono (hbody tr₁ h₁) fun tr₂ r h₂ => ?_
  obtain ⟨n, h₂⟩ := h₂
  exact ends_release h₂ (Nat.lt_succ_self n) fun tr₃ _ h₃ => h₃.holdsNone

theorem ends_ownerConn_of_poolless {context : String} {body : Service α} (h : Uses a a tr)
    (hbody : Svc.Only Poolless body) :
    Svc.ends (poolContract call) tr (withConn context body) fun tr' _ => HoldsNone tr' :=
  ends_ownerConn h fun _ h₁ => Svc.ends_mono (ends_poolless hbody h₁) fun _ _ h₂ => ⟨a, h₂⟩

/-- A command that leaves the pool alone. -/
theorem ends_command {c : Command} {f : Command.Resp c → Service α} {Q : Trace → Except GoError α → Prop}
    (hc : Poolless c) (h : Uses a b tr)
    (hf : ∀ tr' r, Uses a b tr' → Svc.ends (poolContract call) tr' (f r) Q) :
    Svc.ends (poolContract call) tr (ExpenseSaas.call c >>= f) Q := by
  unfold ExpenseSaas.call
  rw [Svc.ends_bind, Svc.ends_call]
  exact ⟨poolAsks_of_poolless hc, fun r _ => hf _ r ((uses_poolless hc).mpr h)⟩

/-- A transaction gives its connection back whatever happens. -/
theorem ends_ownerTx {beginContext commitContext : String} {body : Service α} (h : Uses a b tr)
    (hle : b ≤ a) (hask : PoolAsks call tr (.ext .acquire)) (hbody : Svc.Only Poolless body) :
    Svc.ends (poolContract call) tr (withTx beginContext commitContext body) fun tr' _ =>
      Uses a b tr' ∨ Uses (a + 1) (b + 1) tr' := by
  have hlt : b < a + 1 := Nat.lt_succ_of_le hle
  refine ends_acquire h hask (fun _ _ h => Or.inl h) fun tr₁ _ h₁ => ?_
  refine ends_command trivial h₁ fun tr₂ began h₂ => ?_
  cases began with
  | error e => exact ends_release h₂ hlt fun _ _ h₃ => Or.inr h₃
  | ok _ =>
    dsimp only
    rw [Svc.ends_bind, Svc.ends_attempt]
    refine Svc.ends_mono (ends_poolless hbody h₂) fun tr₃ r h₃ => ?_
    cases r with
    | error e =>
      refine ends_command trivial h₃ fun tr₄ _ h₄ => ?_
      exact ends_release h₄ hlt fun _ _ h₅ => Or.inr h₅
    | ok y =>
      refine ends_command trivial h₃ fun tr₄ committed h₄ => ?_
      refine ends_release h₄ hlt fun tr₅ _ h₅ => ?_
      cases committed with
      | error e => exact Or.inr h₅
      | ok ok =>
        cases ok with
        | false => exact Or.inr h₅
        | true => exact Or.inr h₅

/-! ### The calls -/

theorem ends_signupPool {params : SignupParams} (h : Uses 0 0 tr) :
    Svc.ends (poolContract call) tr (AuthService.signup params) fun tr' _ => HoldsNone tr' := by
  refine ends_poolless_bind poolless_emailTaken h (fun _ _ h => h.holdsNone) fun tr₁ taken h₁ => ?_
  split
  · exact h₁.holdsNone
  · refine ends_poolless_bind (Svc.only_mapError poolless_hashPassword) h₁ (fun _ _ h => h.holdsNone)
      fun tr₂ hash h₂ => ?_
    rw [Svc.ends_bind]
    refine Svc.ends_mono (ends_ownerTx h₂ (Nat.le_refl 0) h₂.mayAcquire poolless_signupTx)
      fun tr₃ r h₃ => ?_
    have hnone : HoldsNone tr₃ := h₃.elim Uses.holdsNone Uses.holdsNone
    cases r with
    | error e => exact hnone
    | ok rows =>
      obtain ⟨n, hn⟩ := hnone
      refine ends_poolless_bind (Svc.only_mapError poolless_generateAccessToken) hn (fun _ _ h => h.holdsNone)
        fun tr₄ _ h₄ => h₄.holdsNone

theorem ends_login {email password : String} (h : Uses 0 0 tr) :
    Svc.ends (poolContract call) tr (AuthService.login email password) fun tr' _ => HoldsNone tr' := by
  refine ends_poolless_bind (poolless_notFoundIs (poolless_row .conn)) h (fun _ _ h => h.holdsNone)
    fun tr₁ user h₁ => ?_
  split
  · exact h₁.holdsNone
  · exact h₁.holdsNone
  · exact ends_ownerConn_of_poolless h₁ poolless_loginConn

theorem ends_executePasswordReset {token newPassword : String} (h : Uses 0 0 tr) :
    Svc.ends (poolContract (.executePasswordReset token newPassword)) tr
      (AuthService.executePasswordReset token newPassword) fun tr' _ => HoldsNone tr' := by
  refine ends_ownerConn h fun tr₁ h₁ => ?_
  have hone : ∀ {tr' : Trace}, Uses 1 0 tr' → ∃ n, Uses (n + 1) n tr' := fun h => ⟨0, h⟩
  refine ends_poolless_bind (poolless_notFoundIs (poolless_row .conn)) h₁ (fun _ _ h => hone h)
    fun tr₂ stored h₂ => ?_
  split
  · exact hone h₂
  · refine ends_command trivial h₂ fun tr₃ now h₃ => ?_
    split
    · exact hone h₃
    · refine ends_poolless_bind (Svc.only_mapError poolless_hashPassword) h₃ (fun _ _ h => hone h)
        fun tr₄ hash h₄ => ?_
      refine Svc.ends_mono (ends_ownerTx h₄ (Nat.zero_le 1) (Or.inr ⟨rfl, h₄⟩)
        poolless_executePasswordResetTx) fun tr₅ r h₅ => ?_
      cases h₅ with
      | inl h₅ => exact ⟨0, h₅⟩
      | inr h₅ => exact ⟨1, h₅⟩

/-- **How the calls use the pool.** -/
theorem call_pool {call : Call} (hauth : call.usesOwnerPool = true) :
    Prog.wp (poolContract call) [] (server.code call) fun tr _ => HoldsNone tr := by
  -- The response is made of the result afterwards.
  have hmap : ∀ {α : Type} {x : Service α} {f : α → Payload},
      Svc.ends (poolContract call) [] x (fun tr _ => HoldsNone tr) →
      Svc.ends (poolContract call) [] (x >>= fun r => pure (f r)) fun tr _ => HoldsNone tr := by
    intro α x f h
    rw [Svc.ends_bind]
    refine Svc.ends_mono h fun tr r hr => ?_
    cases r with
    | ok y => exact hr
    | error e => exact hr
  cases call with
  | tenant actor e => exact absurd hauth Bool.false_ne_true
  | signup params => exact hmap (ends_signupPool uses_nil)
  | login email password => exact hmap (ends_login uses_nil)
  | refreshToken token =>
    refine hmap (ends_poolless_bind poolless_verifyRefreshToken uses_nil (fun _ _ h => h.holdsNone)
      fun tr c h => ends_ownerConn_of_poolless h poolless_refreshConn)
  | logout token =>
    refine hmap (ends_poolless_bind poolless_verifyRefreshToken uses_nil (fun _ _ h => h.holdsNone)
      fun tr c h => ends_ownerConn_of_poolless h poolless_logoutConn)
  | requestPasswordReset email =>
    exact hmap (ends_ownerConn_of_poolless uses_nil poolless_requestPasswordResetConn)
  | executePasswordReset token newPassword => exact hmap (ends_executePasswordReset uses_nil)

end

/-! ## Runs -/

/-- The connections a session holds. -/
def heldBy (s : Session server) : Nat := acquired s.trace - released s.trace

/-- The connections that are taken. -/
def taken (w : World server) : Nat := (w.sessions.map heldBy).sum

/-- The session waits for a connection, or is about to be handed one. -/
def Waiting (s : Session server) : Prop := ∃ k, s.prog = .exec (.ext .acquire) k

/-- The session executes a password reset and has its first connection, but not yet its second. -/
def Halfway (s : Session server) : Prop := s.call.isReset = true ∧ Uses 1 0 s.trace

instance {a b : Nat} {tr : Trace} : Decidable (Uses a b tr) :=
  decidable_of_iff (acquired tr = a ∧ released tr = b) ⟨fun h => ⟨h.1, h.2⟩, fun h => ⟨h.1, h.2⟩⟩

instance (s : Session server) : Decidable (Halfway s) := inferInstanceAs (Decidable (_ ∧ _))

/-- How many of them there are. -/
def halfway (w : World server) : Nat := w.sessions.countP fun s => Halfway s

/-- Only calls that use the pool are made, and a connection is handed out when there is one. -/
def Pooled (w : World server) : Action server → Prop
  | .start c => c.usesOwnerPool = true
  | .step i o => ∀ s, w.sessions[i]? = some s → Waiting s → o.failure = none → taken w < maxConns
  | _ => True

/-- A password reset is handed its first connection when fewer than four others are halfway. -/
def FewResets (w : World server) : Action server → Prop
  | .step i o => ∀ s, w.sessions[i]? = some s → Waiting s → s.call.isReset = true → Uses 0 0 s.trace →
      o.failure = none → halfway w < 4
  | _ => True

/-- All connections are held by calls that wait for another one. -/
structure Deadlocked (w : World server) : Prop where
  all : taken w = maxConns
  waiting : ∀ s ∈ w.sessions, 0 < heldBy s → Waiting s

section

variable {C : World server → Action server → Prop} {d₀ : Database} {w w' : World server} {i : Nat}
  {s s' : Session server} {o : Oracle} {d' : Option Database}

/-- **A session that waits holds nothing, or it is halfway through a password reset.** -/
theorem halfway_of_waiting (hC : ∀ w a, C w a → Pooled w a) (h : Reachable C (.init d₀) w)
    (hs : w.sessions[i]? = some s) (hwait : Waiting s) : heldBy s = 0 ∨ Halfway s := by
  obtain ⟨k, hp⟩ := hwait
  have hask : PoolAsks s.call s.trace (.ext .acquire) :=
    h.asked (fun w c hc => call_pool (hC w _ hc)) hs hp
  refine hask.imp_left fun heq => ?_
  unfold heldBy
  rw [heq, Nat.sub_self]

/-- A call that has returned holds nothing. -/
theorem heldBy_of_returned (hC : ∀ w a, C w a → Pooled w a) (h : Reachable C (.init d₀) w)
    (hs : w.sessions[i]? = some s) {a : Outcome} (hp : s.prog = .ret a) : heldBy s = 0 := by
  obtain ⟨n, hn⟩ := h.returned (fun w c hc => call_pool (hC w _ hc)) hs hp
  unfold heldBy
  rw [hn.acquired, hn.released, Nat.sub_self]

/-- A request for a connection that is met. -/
theorem failure_of_acquired {tr : Trace} {u : Unit} (h : tr ++ [⟨.ext .acquire, .ok u⟩]
    = tr ++ [(⟨.ext .acquire, Ext.answer o .acquire⟩ : Event Command Command.Resp)]) : o.failure = none := by
  cases hfail : o.failure with
  | none => rfl
  | some e =>
    unfold Ext.answer Oracle.unless at h
    rw [hfail] at h
    cases (List.append_singleton_inj.mp h).2

/-- **A session that moves is handed a connection only when it asks for one and nothing fails.** -/
theorem handed_of_move (hm : Move w.db (w.others i) o s s' d') :
    (acquired s'.trace = acquired s.trace ∧ released s.trace ≤ released s'.trace) ∨
      (acquired s'.trace = acquired s.trace + 1 ∧ released s'.trace = released s.trace ∧ Waiting s ∧
        o.failure = none) := by
  cases hm.told with
  | wait hp htr _ =>
    rw [htr]
    exact Or.inl ⟨rfl, Nat.le_refl _⟩
  | @answer c k r hp _ _ htr _ _ =>
    cases hev : handsOut ⟨c, r⟩ with
    | false =>
      rw [htr, acquired_append, released_append, hev]
      exact Or.inl ⟨rfl, Nat.le_add_right _ _⟩
    | true =>
      obtain ⟨u, heq⟩ := eq_of_handsOut hev
      cases heq
      have hok : o.failure = none := failure_of_acquired (htr.symm.trans (hm.told_ext hp))
      rw [htr, acquired_append, released_append]
      exact Or.inr ⟨rfl, rfl, ⟨k, hp⟩, hok⟩

/-- Who comes halfway is handed a connection. -/
theorem handed_of_halfway (hm : Move w.db (w.others i) o s s' d') (h' : Halfway s') :
    Halfway s ∨ (Waiting s ∧ s.call.isReset = true ∧ Uses 0 0 s.trace ∧ o.failure = none) := by
  obtain ⟨hreset, huses⟩ := h'
  rw [hm.told.call_eq] at hreset
  have hone := huses.acquired
  have hnone := huses.released
  rcases handed_of_move hm with ⟨hacquired, hreleased⟩ | ⟨hacquired, hreleased, hwait, hok⟩
  · exact Or.inl ⟨hreset, by omega, by omega⟩
  · exact Or.inr ⟨hwait, hreset, ⟨by omega, by omega⟩, hok⟩

/-- A command that fails hands out nothing. -/
theorem uses_of_broken (hb : Broken s s') : acquired s'.trace = acquired s.trace ∧
    released s'.trace = released s.trace ∧ s'.call = s.call := by
  have hpoolless : ∀ {c : Command} {r : Command.Resp c}, Poolless c →
      acquired (s.trace ++ [⟨c, r⟩]) = acquired s.trace ∧ released (s.trace ++ [⟨c, r⟩]) = released s.trace := by
    intro c r hc
    have hsame : Uses (acquired s.trace) (released s.trace) s.trace := ⟨rfl, rfl⟩
    have huses : Uses (acquired s.trace) (released s.trace) (s.trace ++ [⟨c, r⟩]) := (uses_poolless hc).mpr hsame
    exact ⟨huses.acquired, huses.released⟩
  cases hb with
  | sql e hp => exact ⟨(hpoolless (c := .sql _) trivial).1, (hpoolless (c := .sql _) trivial).2, rfl⟩
  | begin e hp => exact ⟨(hpoolless (c := .begin) trivial).1, (hpoolless (c := .begin) trivial).2, rfl⟩
  | commit e hp => exact ⟨(hpoolless (c := .commit) trivial).1, (hpoolless (c := .commit) trivial).2, rfl⟩
  | rollback e hp => exact ⟨(hpoolless (c := .rollback) trivial).1, (hpoolless (c := .rollback) trivial).2, rfl⟩

theorem Halfway.unbroken (hb : Broken s s') (h' : Halfway s') : Halfway s := by
  obtain ⟨hreset, huses⟩ := h'
  obtain ⟨hacquired, hreleased, hcall⟩ := uses_of_broken hb
  rw [hcall] at hreset
  exact ⟨hreset, hacquired.symm.trans huses.acquired, hreleased.symm.trans huses.released⟩

/-! ### The pool is not overdrawn -/

/-- One session goes on, the others hold what they held. -/
theorem sum_map_set {α : Type} {l : List α} {f : α → Nat} {x y : α} (hx : l[i]? = some x) :
    ((l.set i y).map f).sum + f x = (l.map f).sum + f y := by
  induction l generalizing i with
  | nil => cases hx
  | cons z l ih =>
    cases i with
    | zero =>
      cases hx
      rw [List.set_cons_zero, List.map_cons, List.map_cons, List.sum_cons, List.sum_cons]
      omega
    | succ i =>
      have ih := ih (i := i) hx
      rw [List.set_cons_succ, List.map_cons, List.map_cons, List.sum_cons, List.sum_cons]
      omega

/-- **No more connections are taken than there are.** -/
theorem taken_le_maxConns (hC : ∀ w a, C w a → Pooled w a) (h : Reachable C (.init d₀) w) :
    taken w ≤ maxConns := by
  refine h.invariant (I := fun w => taken w ≤ maxConns) ?_ fun w w' a hr ih hc hstep => ?_
  · exact Nat.zero_le maxConns
  unfold taken at ih ⊢
  cases World.step_cases hstep with
  | start c =>
    show ((w.sessions ++ [Session.new c]).map heldBy).sum ≤ maxConns
    rw [List.map_append, List.sum_append]
    exact ih
  | @broke a i s s' ha hs hb =>
    obtain ⟨hacquired, hreleased, _⟩ := uses_of_broken hb
    have hsum : ((w.sessions.set i s').map heldBy).sum + heldBy s = (w.sessions.map heldBy).sum + heldBy s' :=
      sum_map_set hs
    have hsame : heldBy s' = heldBy s := by
      unfold heldBy
      rw [hacquired, hreleased]
    show ((w.sessions.set i s').map heldBy).sum ≤ maxConns
    omega
  | @move i o s s' d' hs hm =>
    show ((w.sessions.set i s').map heldBy).sum ≤ maxConns
    have hsum : ((w.sessions.set i s').map heldBy).sum + heldBy s = (w.sessions.map heldBy).sum + heldBy s' :=
      sum_map_set hs
    rcases handed_of_move hm with ⟨hacquired, hreleased⟩ | ⟨hacquired, hreleased, hwait, hok⟩
    · have hle : heldBy s' ≤ heldBy s := by
        unfold heldBy
        omega
      omega
    · have hless : taken w < maxConns := hC w _ hc s hs hwait hok
      have hle : heldBy s' ≤ heldBy s + 1 := by
        unfold heldBy
        omega
      unfold taken at hless
      omega

/-! ### Resets halfway -/

theorem not_halfway_new {c : Call} : ¬ Halfway (.new c : Session server) := by
  rintro ⟨_, huses⟩
  exact absurd huses.acquired Nat.zero_ne_one

/-- Who goes on without coming halfway makes no more of them. -/
theorem countP_set_le {α : Type} {l : List α} {p : α → Bool} {x y : α} (hx : l[i]? = some x)
    (hp : p y = true → p x = true) : (l.set i y).countP p ≤ l.countP p := by
  obtain ⟨hi, rfl⟩ := List.getElem?_eq_some_iff.mp hx
  rw [List.countP_set hi]
  by_cases hy : p y = true
  · have hpos : 0 < l.countP p := List.countP_pos_iff.mpr ⟨_, List.getElem_mem hi, hp hy⟩
    rw [if_pos (hp hy), if_pos hy]
    omega
  · rw [if_neg hy]
    omega

/-- One session that goes on makes at most one more. -/
theorem countP_set_le_succ {α : Type} {l : List α} {p : α → Bool} {x y : α} (hx : l[i]? = some x) :
    (l.set i y).countP p ≤ l.countP p + 1 := by
  obtain ⟨hi, rfl⟩ := List.getElem?_eq_some_iff.mp hx
  rw [List.countP_set hi]
  split <;> split <;> omega

/-- **At most four resets are halfway.** -/
theorem halfway_le_four (hC : ∀ w a, C w a → FewResets w a) (h : Reachable C (.init d₀) w) :
    halfway w ≤ 4 := by
  refine h.invariant (I := fun w => halfway w ≤ 4) ?_ fun w w' a hr ih hc hstep => ?_
  · exact Nat.zero_le 4
  unfold halfway at ih ⊢
  cases World.step_cases hstep with
  | start c =>
    show (w.sessions ++ [Session.new c]).countP _ ≤ 4
    rw [List.countP_append, List.countP_singleton, if_neg (by simpa using not_halfway_new)]
    exact ih
  | broke ha hs hb =>
    refine Nat.le_trans (countP_set_le hs fun h' => ?_) ih
    exact decide_eq_true (Halfway.unbroken hb (of_decide_eq_true h'))
  | @move i o s s' d' hs hm =>
    show (w.sessions.set i s').countP _ ≤ 4
    by_cases hhalf : Halfway s' → Halfway s
    · refine Nat.le_trans (countP_set_le hs fun h' => ?_) ih
      exact decide_eq_true (hhalf (of_decide_eq_true h'))
    · -- It is handed its first connection.
      obtain ⟨h', hnot⟩ := Classical.not_imp.mp hhalf
      obtain ⟨hwait, hreset, huses, hok⟩ := (handed_of_halfway hm h').resolve_left hnot
      have hfew : halfway w < 4 := hC w _ hc s hs hwait hreset huses hok
      unfold halfway at hfew
      exact Nat.le_trans (countP_set_le_succ hs) hfew

/-- What nobody has more than one of. -/
theorem sum_le_countP {α : Type} {l : List α} {p : α → Bool} {f : α → Nat}
    (h : ∀ x ∈ l, f x = 0 ∨ (p x = true ∧ f x = 1)) : (l.map f).sum ≤ l.countP p := by
  induction l with
  | nil => exact Nat.le_refl 0
  | cons x l ih =>
    have ih := ih fun y hy => h y (List.mem_cons_of_mem x hy)
    rw [List.map_cons, List.sum_cons]
    rcases h x List.mem_cons_self with hx | ⟨hp, hx⟩
    · have hle : l.countP p ≤ (x :: l).countP p := (List.sublist_cons_self x l).countP_le
      omega
    · rw [List.countP_cons_of_pos hp]
      omega

/-- **With few resets halfway the pool is not deadlocked.** -/
theorem not_deadlocked_of_fewResets
    (h : Reachable (fun w a => Pooled w a ∧ FewResets w a) (.init d₀) w) : ¬ Deadlocked w := by
  intro hdead
  have hfour := halfway_le_four (fun _ _ hc => hc.2) h
  -- Whoever holds a connection is halfway, and holds that one only.
  have hle : taken w ≤ halfway w := by
    refine sum_le_countP fun s hs => ?_
    obtain ⟨i, hi⟩ := List.getElem?_of_mem hs
    by_cases hheld : heldBy s = 0
    · exact Or.inl hheld
    · have hwait := hdead.waiting s hs (Nat.pos_of_ne_zero hheld)
      have hhalf := (halfway_of_waiting (fun _ _ hc => hc.1) h hi hwait).resolve_left hheld
      refine Or.inr ⟨decide_eq_true hhalf, ?_⟩
      unfold heldBy
      rw [hhalf.2.acquired, hhalf.2.released]
  rw [hdead.all] at hle
  unfold maxConns at hle
  omega

end

/-! ## One reset, and five -/

namespace Sample

/-- The owner resets the password. -/
def resetCall : Call := .executePasswordReset "reset" "new"

/-- Four resets, each until it asks for its second connection; the first is handed the last one. -/
def fourResets : List (Action server) :=
  List.replicate 4 (.start resetCall) ++ turns 0 6 100 ++ turns 1 6 200 ++ turns 2 6 300 ++ turns 3 6 400
    ++ turns 0 1 500

/-- They go on to their ends, one after the other. -/
def handedOn : List (Action server) := turns 0 13 600 ++ turns 1 13 700 ++ turns 2 13 800 ++ turns 3 13 900

/-- Five resets, each until it asks for its second connection. -/
def fiveResets : List (Action server) :=
  List.replicate 5 (.start resetCall) ++ turns 0 6 100 ++ turns 1 6 200 ++ turns 2 6 300 ++ turns 3 6 400
    ++ turns 4 6 500

end Sample

/-- The session asks for a connection. -/
def asksForConn (s : Session server) : Bool :=
  match s.prog with
  | .exec (.ext .acquire) _ => true
  | _ => false

theorem asksForConn_eq_true {s : Session server} : asksForConn s = true ↔ Waiting s := by
  unfold asksForConn Waiting
  constructor
  · intro h
    split at h
    · exact ⟨_, by assumption⟩
    · cases h
  · rintro ⟨k, hp⟩
    rw [hp]

/-- A check that the pool is respected. -/
def pooledCheck (w : World server) : Action server → Bool
  | .start c => c.usesOwnerPool
  | .step i _ => (w.sessions[i]?).all fun s => !asksForConn s || taken w < maxConns
  | _ => true

theorem pooled_of_check (w : World server) (a : Action server) (h : pooledCheck w a = true) : Pooled w a := by
  cases a with
  | start c => exact h
  | step i o =>
    intro s hs hwait _
    have h : ((w.sessions[i]?).all fun s => !asksForConn s || taken w < maxConns) = true := h
    rw [hs, Option.all_some, asksForConn_eq_true.mpr hwait] at h
    exact of_decide_eq_true h
  | _ => trivial

/-- **Five resets deadlock the pool**, though nothing fails and nobody else does anything. -/
theorem deadlocked_of_fiveResets :
    ∃ w : World server, Reachable Pooled (.init Sample.database) w ∧ Deadlocked w := by
  have hrun : ((World.init Sample.database : World server).run pooledCheck Sample.fiveResets).any
      (fun w => taken w = maxConns && w.sessions.all asksForConn) = true := by
    decide +kernel
  obtain ⟨w, hw, hdead⟩ := exists_of_run pooled_of_check hrun
  obtain ⟨hall, hwait⟩ := Bool.and_eq_true_iff.mp hdead
  refine ⟨w, hw, of_decide_eq_true hall, fun s hs _ => ?_⟩
  exact asksForConn_eq_true.mp (List.all_eq_true.mp hwait s hs)

/-- A check that a reset is handed its first connection when fewer than four others are halfway. -/
def fewCheck (w : World server) : Action server → Bool
  | .step i _ => w.sessions[i]?.all fun s =>
      !(asksForConn s && s.call.isReset && decide (Uses 0 0 s.trace)) || halfway w < 4
  | _ => true

theorem few_of_check (w : World server) (a : Action server) (h : fewCheck w a = true) : FewResets w a := by
  cases a with
  | step i o =>
    intro s hs hwait hreset huses _
    have h : (w.sessions[i]?.all fun s =>
      !(asksForConn s && s.call.isReset && decide (Uses 0 0 s.trace)) || halfway w < 4) = true := h
    rw [hs, Option.all_some, asksForConn_eq_true.mpr hwait, hreset, decide_eq_true huses] at h
    exact of_decide_eq_true h
  | _ => trivial

/--
Four resets take all five connections, and three of them wait for another one. They
do not wait for ever: all of them come to their ends.
-/
theorem not_deadlocked_of_fourResets : ∃ w w' : World server,
    Reachable (fun w a => Pooled w a ∧ FewResets w a) (.init Sample.database) w ∧
      (taken w = maxConns ∧ halfway w = 3) ∧ ¬ Deadlocked w ∧
    Reachable (fun w a => Pooled w a ∧ FewResets w a) (.init Sample.database) w' ∧
      (w'.sessions.length = 4 ∧ w'.sessions.all (fun s => acquired s.trace = 2) ∧ taken w' = 0) ∧
      ¬ Deadlocked w' := by
  have hcheck : ∀ (w : World server) (a : Action server), (pooledCheck w a && fewCheck w a) = true →
      Pooled w a ∧ FewResets w a := by
    intro w a h
    obtain ⟨hpool, hfew⟩ := Bool.and_eq_true_iff.mp h
    exact ⟨pooled_of_check w a hpool, few_of_check w a hfew⟩
  have hrun : ((World.init Sample.database : World server).run
      (fun w a => pooledCheck w a && fewCheck w a) Sample.fourResets).any
        (fun w => taken w = maxConns ∧ halfway w = 3) = true := by
    decide +kernel
  have hrest : ((World.init Sample.database : World server).run
      (fun w a => pooledCheck w a && fewCheck w a) (Sample.fourResets ++ Sample.handedOn)).any
        (fun w => w.sessions.length = 4 ∧ w.sessions.all (fun s => acquired s.trace = 2) ∧
          taken w = 0) = true := by
    decide +kernel
  obtain ⟨w, hw, hfull⟩ := exists_of_run hcheck hrun
  obtain ⟨w', hw', hended⟩ := exists_of_run hcheck hrest
  exact ⟨w, w', hw, of_decide_eq_true hfull, not_deadlocked_of_fewResets hw, hw',
    of_decide_eq_true hended, not_deadlocked_of_fewResets hw'⟩

end ExpenseSaas
