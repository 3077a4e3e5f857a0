import ExpenseSaas.ReadCommitted.Solo

/-!
# What a service does alone

`Gives` says what a service that runs alone returns and where it leaves the
client, with a rule for each construct: a service of several parts returns a
result exactly when each of them does, one after the other. `Prog.trace` lists
the commands it has issued on the way, with their answers.

A statement that reads leaves the transaction's view as it was; `Calm` is what
that comes to for a service that only looks things up.
-/

namespace ReadCommitted

namespace Prog

variable {C : Type} {R : C → Type} {α β σ : Type} {f : σ → (c : C) → R c × σ} {s : σ}

/-- The commands of a run, each with its answer. -/
def trace (f : σ → (c : C) → R c × σ) : Prog C R α → σ → List (Event C R)
  | .ret _, _ => []
  | .exec c k, s => ⟨c, (f s c).1⟩ :: trace f (k (f s c).1) (f s c).2

theorem trace_bind {p : Prog C R β} {g : β → Prog C R α} :
    trace f (p >>= g) s = trace f p s ++ trace f (g (eval f p s).1) (eval f p s).2 := by
  induction p generalizing s with
  | ret a => rfl
  | exec c k ih => exact congrArg (List.cons _) (ih _)

end Prog

variable {E : Engine}

/-- The client in a transaction in which nothing has failed. -/
def Solo.inside (db : E.D) (clock : E.O) (view : E.D) (n : Nat) : Solo E := ⟨db, some ⟨clock, view, false⟩, n⟩

/-- What a commit makes current. -/
def Solo.committed (s : Solo E) : E.D := match s.txn with
  | none => s.db
  | some t => if t.failed then s.db else t.view

@[simp] theorem Solo.committed_inside {db view : E.D} {clock : E.O} {n : Nat} :
    (Solo.inside db clock view n).committed = view := rfl

/-- Alone, from `s`, the service returns `a` and leaves `s'`. -/
def Gives {ε α : Type} (env : Nat → E.O) (x : Svc E.Cmd E.Resp ε α) (s : Solo E) (a : α) (s' : Solo E) :
    Prop := Solo.run env x.run s = (.ok a, s')

section

variable {env : Nat → E.O} {ε α β : Type} {s s' : Solo E} {a : α} {b : β}

theorem Gives.unique {x : Svc E.Cmd E.Resp ε α} {a' : α} {s'' : Solo E} (h : Gives env x s a s')
    (h' : Gives env x s a' s'') : a' = a ∧ s'' = s' := by
  have heq := h'.symm.trans h
  rw [Prod.mk.injEq, Except.ok.injEq] at heq
  exact heq

@[simp] theorem gives_pure {a' : α} :
    Gives env (pure a' : Svc E.Cmd E.Resp ε α) s a s' ↔ a = a' ∧ s' = s := by
  show ((Except.ok a', s) : Except ε α × Solo E) = (.ok a, s') ↔ _
  rw [Prod.mk.injEq, Except.ok.injEq]
  exact and_congr eq_comm eq_comm

@[simp] theorem gives_throw {e : ε} : Gives env (throw e : Svc E.Cmd E.Resp ε α) s a s' ↔ False := by
  refine ⟨fun h => ?_, False.elim⟩
  have heq : ((Except.error e, s) : Except ε α × Solo E) = (.ok a, s') := h
  cases heq

/-- **One part after the other.** -/
theorem gives_bind {x : Svc E.Cmd E.Resp ε α} {f : α → Svc E.Cmd E.Resp ε β} :
    Gives env (x >>= f) s b s' ↔ ∃ a s₁, Gives env x s a s₁ ∧ Gives env (f a) s₁ b s' := by
  unfold Gives Solo.run
  rw [Svc.run_bind, Prog.eval_bind]
  cases hx : Prog.eval (Solo.step env) x.run s with
  | mk r s₁ =>
    cases r with
    | ok a =>
      constructor
      · intro h
        exact ⟨a, s₁, rfl, h⟩
      · rintro ⟨a', s₁', ha, h⟩
        cases ha
        exact h
    | error e =>
      constructor
      · intro h
        cases h
      · rintro ⟨a', s₁', ha, _⟩
        cases ha

@[simp] theorem gives_map {x : Svc E.Cmd E.Resp ε α} {f : α → β} :
    Gives env (f <$> x) s b s' ↔ ∃ a, Gives env x s a s' ∧ b = f a := by
  show Gives env (x >>= fun a => pure (f a)) s b s' ↔ _
  rw [gives_bind]
  constructor
  · rintro ⟨a, s₁, hx, hb⟩
    obtain ⟨rfl, rfl⟩ := gives_pure.mp hb
    exact ⟨a, hx, rfl⟩
  · rintro ⟨a, hx, rfl⟩
    exact ⟨a, s', hx, gives_pure.mpr ⟨rfl, rfl⟩⟩

@[simp] theorem gives_ofExcept {r : Except ε α} :
    Gives env (Svc.ofExcept r : Svc E.Cmd E.Resp ε α) s a s' ↔ r = .ok a ∧ s' = s := by
  show ((r, s) : Except ε α × Solo E) = (.ok a, s') ↔ _
  rw [Prod.mk.injEq]
  exact and_congr Iff.rfl eq_comm

@[simp] theorem gives_mapError {f : ε → ε} {x : Svc E.Cmd E.Resp ε α} :
    Gives env (Svc.mapError f x) s a s' ↔ Gives env x s a s' := by
  show Prog.eval (Solo.step env) (x.run >>= _) s = _ ↔ _
  unfold Gives Solo.run
  rw [Prog.eval_bind]
  cases hx : Prog.eval (Solo.step env) x.run s with
  | mk r s₁ =>
    cases r with
    | ok a' => exact Iff.rfl
    | error e =>
      constructor
      · intro h
        cases h
      · intro h
        cases h

theorem gives_attempt {x : Svc E.Cmd E.Resp ε α} {r : Except ε α} :
    Gives env (Svc.attempt x) s r s' ↔ Solo.run env x.run s = (r, s') := by
  show Prog.eval (Solo.step env) (x.run >>= _) s = _ ↔ _
  rw [Prog.eval_bind, Solo.run]
  show ((Except.ok _, _) : Except ε (Except ε α) × Solo E) = (.ok r, s') ↔ _
  rw [Prod.mk.injEq, Except.ok.injEq]
  exact Prod.mk.injEq _ _ _ _ ▸ Iff.rfl

theorem gives_call {c : E.Cmd} {r : E.Resp c} :
    Gives env (Svc.call c : Svc E.Cmd E.Resp ε (E.Resp c)) s r s' ↔ Solo.step env s c = (r, s') := by
  show ((Except.ok _, _) : Except ε (E.Resp c) × Solo E) = (.ok r, s') ↔ _
  rw [Prod.mk.injEq, Except.ok.injEq]
  exact Prod.mk.injEq _ _ _ _ ▸ Iff.rfl

end

/-! ## Looking up -/

section

variable {env : Nat → E.O} {α : Type} {db d : E.D} {clock : E.O} {n : Nat}

/-- A command that reads and never fails, or does not concern the database. -/
def Engine.Calm (E : Engine) : E.Cmd → Prop
  | .sql q => ∀ d clock o, ∃ r, E.alone q clock o d = .ok (r, d)
  | .ext _ => True
  | _ => False

/-- A program of such commands leaves its transaction as it was. -/
theorem inside_of_calm {p : Prog E.Cmd E.Resp α} (h : Prog.Only E.Calm p) :
    ∃ n', (Solo.run env p (.inside db clock d n)).2 = .inside db clock d n' := by
  induction p generalizing n with
  | ret a => exact ⟨n, rfl⟩
  | exec c k ih =>
    obtain ⟨hc, hk⟩ := h
    cases c with
    | ext x => exact ih _ (hk _)
    | sql q =>
      obtain ⟨r, hr⟩ := hc d clock (env n)
      have hstep : Solo.step env (.inside db clock d n) (.sql q) = (.ok r, .inside db clock d (n + 1)) := by
        simp only [Solo.inside, Solo.step, hr]
        rfl
      show ∃ n', (Prog.eval (Solo.step env) (k (Solo.step env (.inside db clock d n) (.sql q)).1)
        (Solo.step env (.inside db clock d n) (.sql q)).2).2 = _
      rw [hstep]
      exact ih (.ok r) (hk _)
    | begin | commit | rollback => exact hc.elim

theorem Gives.inside {ε : Type} {x : Svc E.Cmd E.Resp ε α} {a : α} {s' : Solo E} (hx : Svc.Only E.Calm x)
    (h : Gives env x (.inside db clock d n) a s') : ∃ n', s' = .inside db clock d n' := by
  have hstays : ∃ n', (Solo.run env x.run (.inside db clock d n)).2 = .inside db clock d n' :=
    inside_of_calm hx
  obtain ⟨n', hn⟩ := hstays
  have hs : (Solo.run env x.run (.inside db clock d n)).2 = s' := congrArg Prod.snd h
  exact ⟨n', hs.symm.trans hn⟩

end

/-! ## Errors that do not happen -/

/-- The event is a statement that failed with one of these errors. -/
def failedWith (bad : E.ε → Bool) : Event E.Cmd E.Resp → Bool
  | ⟨.sql _, .error e⟩ => bad e
  | _ => false

/-- Alone, from `s`, no statement of the program fails with one of these errors. -/
def Spared (bad : E.ε → Bool) (env : Nat → E.O) {α : Type} (p : Prog E.Cmd E.Resp α) (s : Solo E) :
    Prop := ∀ ev ∈ Prog.trace (Solo.step env) p s, failedWith bad ev = false

section

variable {bad : E.ε → Bool} {env : Nat → E.O} {ε α β : Type} {s : Solo E}

@[simp] theorem spared_ret {a : α} : Spared bad env (.ret a : Prog E.Cmd E.Resp α) s ↔ True :=
  ⟨fun _ => trivial, fun _ _ hev => absurd hev List.not_mem_nil⟩

theorem spared_exec {c : E.Cmd} {k : E.Resp c → Prog E.Cmd E.Resp α} :
    Spared bad env (.exec c k) s ↔ failedWith bad (⟨c, (Solo.step env s c).1⟩ : Event E.Cmd E.Resp) = false ∧
      Spared bad env (k (Solo.step env s c).1) (Solo.step env s c).2 := by
  unfold Spared
  rw [Prog.trace, List.forall_mem_cons]

theorem spared_bind {p : Prog E.Cmd E.Resp α} {g : α → Prog E.Cmd E.Resp β} :
    Spared bad env (p >>= g) s ↔
      Spared bad env p s ∧ Spared bad env (g (Solo.run env p s).1) (Solo.run env p s).2 := by
  unfold Spared
  rw [Prog.trace_bind, List.forall_mem_append]

/-- **One part after the other**: what follows is only run after a result. -/
theorem spared_svc_bind {x : Svc E.Cmd E.Resp ε α} {f : α → Svc E.Cmd E.Resp ε β} :
    Spared bad env (x >>= f).run s ↔
      Spared bad env x.run s ∧ ∀ a s', Gives env x s a s' → Spared bad env (f a).run s' := by
  rw [Svc.run_bind, spared_bind]
  refine and_congr_right fun _ => ?_
  unfold Gives
  cases hx : Solo.run env x.run s with
  | mk r s₁ =>
    cases r with
    | ok a =>
      constructor
      · intro h a' s' ha
        cases ha
        exact h
      · exact fun h => h a s₁ rfl
    | error e =>
      refine ⟨fun _ a' s' ha => ?_, fun _ => spared_ret.mpr trivial⟩
      cases ha

@[simp] theorem spared_pure {a : α} : Spared bad env (pure a : Svc E.Cmd E.Resp ε α).run s ↔ True :=
  spared_ret

@[simp] theorem spared_throw {e : ε} : Spared bad env (throw e : Svc E.Cmd E.Resp ε α).run s ↔ True :=
  spared_ret

@[simp] theorem spared_ofExcept {r : Except ε α} :
    Spared bad env (Svc.ofExcept r : Svc E.Cmd E.Resp ε α).run s ↔ True := spared_ret

@[simp] theorem spared_mapError {f : ε → ε} {x : Svc E.Cmd E.Resp ε α} :
    Spared bad env (Svc.mapError f x).run s ↔ Spared bad env x.run s := by
  show Spared bad env (x.run >>= _) s ↔ _
  rw [spared_bind]
  exact ⟨And.left, fun h => ⟨h, spared_ret.mpr trivial⟩⟩

@[simp] theorem spared_map {f : α → β} {x : Svc E.Cmd E.Resp ε α} :
    Spared bad env (f <$> x).run s ↔ Spared bad env x.run s := by
  show Spared bad env (x >>= fun a => pure (f a)).run s ↔ _
  rw [spared_svc_bind]
  exact ⟨And.left, fun h => ⟨h, fun _ _ _ => spared_pure.mpr trivial⟩⟩

theorem spared_call {c : E.Cmd} : Spared bad env (Svc.call c : Svc E.Cmd E.Resp ε (E.Resp c)).run s ↔
    failedWith bad (⟨c, (Solo.step env s c).1⟩ : Event E.Cmd E.Resp) = false := by
  refine spared_exec.trans ?_
  exact ⟨And.left, fun h => ⟨h, spared_ret.mpr trivial⟩⟩

/-- Nothing fails of what only looks things up. -/
theorem spared_of_calm {db d : E.D} {clock : E.O} {n : Nat} {p : Prog E.Cmd E.Resp α}
    (h : Prog.Only E.Calm p) : Spared bad env p (.inside db clock d n) := by
  induction p generalizing n with
  | ret a => exact spared_ret.mpr trivial
  | exec c k ih =>
    obtain ⟨hc, hk⟩ := h
    rw [spared_exec]
    cases c with
    | ext x => exact ⟨rfl, ih _ (hk _)⟩
    | sql q =>
      obtain ⟨r, hr⟩ := hc d clock (env n)
      have hstep : Solo.step env (.inside db clock d n) (.sql q) = (.ok r, .inside db clock d (n + 1)) := by
        simp only [Solo.inside, Solo.step, hr]
        rfl
      rw [hstep]
      exact ⟨rfl, ih _ (hk _)⟩
    | begin | commit | rollback => exact hc.elim

/-- After something that gave a result, with nothing failing on the way. -/
theorem spared_after {x : Svc E.Cmd E.Resp ε α} {f : α → Svc E.Cmd E.Resp ε β} {a : α} {s' : Solo E}
    (hx : Spared bad env x.run s) (h : Gives env x s a s') :
    Spared bad env (x >>= f).run s ↔ Spared bad env (f a).run s' := by
  rw [spared_svc_bind]
  constructor
  · intro hf
    exact hf.2 a s' h
  · intro hf
    refine ⟨hx, fun a' s'' h' => ?_⟩
    obtain ⟨rfl, rfl⟩ := h.unique h'
    exact hf

/-- Before something that only looks things up. -/
theorem spared_before {x : Svc E.Cmd E.Resp ε α} {f : α → Svc E.Cmd E.Resp ε β}
    (hf : ∀ a s', Gives env x s a s' → Spared bad env (f a).run s') :
    Spared bad env (x >>= f).run s ↔ Spared bad env x.run s := by
  rw [spared_svc_bind]
  exact ⟨And.left, fun h => ⟨h, hf⟩⟩

end

end ReadCommitted
