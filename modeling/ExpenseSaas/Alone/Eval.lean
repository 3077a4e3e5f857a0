import ExpenseSaas.Alone.Calls
import ExpenseSaas.ReadCommitted.Eval

/-!
# Requests alone

The statements and the constructs of the services, each with what it gives when
nobody else is connected, and a whole request made of them: what a successful
one returns and leaves is what its service does in a transaction of its own
(`serve_tenant`).
-/

namespace ExpenseSaas

open ReadCommitted Sql

section

variable {α β : Type} {env : Nat → Oracle} {db d : Database} {clock : Oracle} {n : Nat} {a : α}
  {s s' : Solo server}

/-- What a service of the server gives alone. -/
abbrev GivesAlone (env : Nat → Oracle) (x : Service α) (s : Solo server) (a : α) (s' : Solo server) : Prop :=
  Gives (E := server) env x s a s'

/-! ## Constructs -/

theorem mapError_eq_ok {ε ε' : Type} {f : ε → ε'} {x : Except ε α} : x.mapError f = .ok a ↔ x = .ok a := by
  cases x with
  | ok b =>
    constructor <;> intro h <;> cases h <;> rfl
  | error e =>
    constructor <;> intro h <;> cases h

@[simp] theorem gives_fail {e : DomainError} : GivesAlone env (fail e : Service α) s a s' ↔ False := gives_throw

@[simp] theorem gives_errorf {context : String} {x : Service α} :
    GivesAlone env (errorf context x) s a s' ↔ GivesAlone env x s a s' := gives_mapError

@[simp] theorem gives_demand {x : Except DomainError α} :
    GivesAlone env (demand x) s a s' ↔ x = .ok a ∧ s' = s := by
  refine gives_ofExcept.trans (and_congr ?_ Iff.rfl)
  exact mapError_eq_ok

@[simp] theorem gives_orFail {x : Except GoError α} : GivesAlone env (orFail x) s a s' ↔ x = .ok a ∧ s' = s :=
  gives_ofExcept

@[simp] theorem gives_orSqlError {x : Except SqlError α} :
    GivesAlone env (orSqlError x) s a s' ↔ x = .ok a ∧ s' = s := by
  refine gives_ofExcept.trans (and_congr ?_ Iff.rfl)
  exact mapError_eq_ok

@[simp] theorem gives_orNoRows {e : DomainError} {row : Option α} :
    GivesAlone env (orNoRows e row) s a s' ↔ row = some a ∧ s' = s := by
  cases row with
  | none =>
    refine gives_fail.trans ⟨False.elim, fun h => ?_⟩
    cases h.1
  | some r =>
    refine gives_pure.trans (and_congr ?_ Iff.rfl)
    rw [Option.some.injEq]
    exact eq_comm

theorem gives_ite {c : Prop} [Decidable c] {x y : Service α} :
    GivesAlone env (if c then x else y) s a s' ↔
      c ∧ GivesAlone env x s a s' ∨ ¬ c ∧ GivesAlone env y s a s' := by
  by_cases hc : c
  · rw [if_pos hc]
    exact ⟨fun h => .inl ⟨hc, h⟩, fun h => h.elim And.right fun h => absurd hc h.1⟩
  · rw [if_neg hc]
    exact ⟨fun h => .inr ⟨hc, h⟩, fun h => h.elim (fun h => absurd h.1 hc) And.right⟩

/-- A check that refuses. -/
theorem gives_unless {c : Prop} [Decidable c] {e : DomainError} {x : Service α} :
    GivesAlone env (if c then fail e else x) s a s' ↔ ¬ c ∧ GivesAlone env x s a s' := by
  rw [gives_ite]
  exact ⟨fun h => h.elim (fun h => (gives_fail.mp h.2).elim) id, .inr⟩

/-! ## Statements -/

/-- The low 32 bits of a number are that number from 0 up to the largest `INTEGER`. -/
theorem int32_eq_self {a : Int} (ha : 0 ≤ a) : int32 a = a ↔ a < 2 ^ 31 := by
  unfold int32
  constructor
  · intro h
    have hlt : Int.bmod a (2 ^ 32) < ((2 ^ 32 : Nat) + 1) / 2 := Int.bmod_lt (by decide)
    omega
  · intro h
    exact Int.bmod_eq_of_le (by omega) (by omega)

/-- A statement in the open transaction. -/
theorem gives_sql {q : Stmt} {r : q.Result} :
    GivesAlone env (sql q) (.inside db clock d n) r s' ↔
      ∃ d', server.alone q clock (env n) d = .ok (r, d') ∧ s' = .inside db clock d' (n + 1) := by
  unfold sql
  refine gives_bind.trans ?_
  cases hq : server.alone q clock (env n) d with
  | ok x =>
    obtain ⟨r', d'⟩ := x
    have hstep : Solo.step env (.inside db clock d n) (.sql q) = (.ok r', .inside db clock d' (n + 1)) := by
      simp only [Solo.inside, Solo.step, hq]
      rfl
    constructor
    · rintro ⟨a, s₁, ha, hr⟩
      cases (gives_call (E := server)).mp ha |>.symm.trans hstep
      obtain ⟨hr, rfl⟩ := gives_orSqlError.mp hr
      cases hr
      exact ⟨d', rfl, rfl⟩
    · rintro ⟨d'', hd, rfl⟩
      cases hd
      exact ⟨_, _, gives_call.mpr hstep, gives_orSqlError.mpr ⟨rfl, rfl⟩⟩
  | error e =>
    have hstep : Solo.step env (.inside db clock d n) (.sql q) =
        (.error e, ⟨db, some ⟨clock, d, true⟩, n + 1⟩) := by
      simp only [Solo.inside, Solo.step, hq]
      rfl
    constructor
    · rintro ⟨a, s₁, ha, hr⟩
      cases (gives_call (E := server)).mp ha |>.symm.trans hstep
      cases (gives_orSqlError.mp hr).1
    · rintro ⟨d'', hd, _⟩
      cases hd

/-- A call of the outside. -/
theorem gives_ext {x : Ext} {r : x.Result} :
    GivesAlone env (ext x) (.inside db clock d n) r s' ↔
      r = x.answer (env n) ∧ s' = .inside db clock d (n + 1) := by
  unfold ext call
  refine gives_call.trans ?_
  show ((Ext.answer (env n) x, Solo.inside db clock d (n + 1)) : x.Result × Solo server) = (r, s') ↔ _
  rw [Prod.mk.injEq]
  exact and_congr eq_comm eq_comm

/-- A query answers what it reads, and changes nothing. -/
theorem gives_query {q : Stmt} {read : Database → Oracle → Oracle → Except SqlError q.Result}
    {r : q.Result} (hq : q.sem = .query read) :
    GivesAlone env (sql q) (.inside db clock d n) r s' ↔
      read d clock (env n) = .ok r ∧ s' = .inside db clock d (n + 1) := by
  have hsem : server.sem q = .query read := hq
  rw [gives_sql]
  unfold Engine.alone
  rw [hsem]
  cases hread : read d clock (env n) with
  | ok x =>
    simp only [hread, Except.map, Except.ok.injEq, Prod.mk.injEq]
    constructor
    · rintro ⟨d', ⟨rfl, rfl⟩, rfl⟩
      exact ⟨rfl, rfl⟩
    · rintro ⟨rfl, rfl⟩
      exact ⟨d, ⟨rfl, rfl⟩, rfl⟩
  | error e =>
    simp only [hread, Except.map]
    constructor
    · rintro ⟨d', h, _⟩
      cases h
    · rintro ⟨h, _⟩
      cases h

/-- A statement that reads, and what it reads is `r`. -/
theorem gives_read {q : Stmt} {r r' : q.Result} (hq : server.alone q clock (env n) d = .ok (r', d)) :
    GivesAlone env (sql q) (.inside db clock d n) r s' ↔ r = r' ∧ s' = .inside db clock d (n + 1) := by
  rw [gives_sql, hq]
  constructor
  · rintro ⟨d', h, rfl⟩
    cases h
    exact ⟨rfl, rfl⟩
  · rintro ⟨rfl, rfl⟩
    exact ⟨d, rfl, rfl⟩

end

/-! ## A whole request -/

section

variable {env : Nat → Oracle} {actor : Actor} {e : Endpoint} {d d' : Database} {p : Payload}

/-- The client when the handler of its request starts. -/
abbrev handling (env : Nat → Oracle) (d : Database) : Solo server := .inside d (env 0) d 2

/-- **A request alone** succeeds exactly when the role is let through and the service
returns a result; what is left is what its transaction commits. -/
theorem serve_tenant : server.serve env (.tenant actor e) d = (.ok p, d') ↔
    actor.role ∈ e.roles ∧ ∃ s', GivesAlone env (e.service actor) (handling env d) p s' ∧ d' = s'.committed := by
  -- The handler, and the commit or the rollback after it.
  have hserve : server.serve env (.tenant actor e) d =
      let r := Solo.run env (requireRole actor e.roles (e.service actor)).run (handling env d)
      (r.1, if statusOf e.responder r.1 < 400 then r.2.committed else r.2.db) := by
    show (let r := Prog.eval (Solo.step env) (tenantContext actor.tenantID e.responder
      (requireRole actor e.roles (e.service actor))) (Solo.init (E := server) d); (r.1, r.2.db)) = _
    show (let r := Prog.eval (Solo.step env) (((requireRole actor e.roles (e.service actor)).run >>= fun r => _) :
      Program Outcome) (handling env d); (r.1, r.2.db)) = _
    rw [Prog.eval_bind]
    unfold Solo.run
    generalize Prog.eval (Solo.step env) _ (handling env d) = x
    obtain ⟨r, db, txn, n⟩ := x
    dsimp only
    split
    · cases txn with
      | none => rfl
      | some t =>
        obtain ⟨clock, view, failed⟩ := t
        cases failed <;> rfl
    · rfl
  rw [hserve]
  unfold requireRole
  by_cases hrole : actor.role ∈ e.roles
  · rw [if_pos hrole]
    dsimp only
    unfold GivesAlone Gives
    generalize Solo.run env (e.service actor).run (handling env d) = x
    obtain ⟨r, s⟩ := x
    cases r with
    | ok p' =>
      have hok : statusOf e.responder (.ok p') < 400 := Nat.lt_of_lt_of_le (show 200 < 400 by decide) (Nat.le_refl _)
      rw [if_pos hok]
      constructor
      · intro h
        cases h
        exact ⟨hrole, s, rfl, rfl⟩
      · rintro ⟨_, s', hs, rfl⟩
        cases hs
        rfl
    | error err =>
      constructor
      · intro h
        cases h
      · rintro ⟨_, s', hs, _⟩
        cases hs
  · rw [if_neg hrole]
    constructor
    · intro h
      cases h
    · exact fun h => absurd h.1 hrole

end

end ExpenseSaas
