/-!
# Client programs

What a database client does is a tree: it issues a command, receives an answer,
and what it does next depends on the answer. `Prog` is that tree, `Svc` adds
the early returns of a service layer, and the programs below are written in
`do` notation so that they read like the code they stand for.

A program never touches a database itself. The same tree is run here in two
ways: command by command, interleaved with other clients (`Machine.lean`), and
alone, from one database state to the next (`Solo.lean`). What is proved about
the tree holds in both.
-/

namespace ReadCommitted

variable {C : Type} {R : C → Type} {α β ε : Type}

/-- A client program over commands `C`, each answered by an `R c`. -/
inductive Prog (C : Type) (R : C → Type) (α : Type) where
  /-- Done, with a result. -/
  | ret (a : α) : Prog C R α
  /-- Issue `c` and go on with its answer. -/
  | exec (c : C) (k : R c → Prog C R α) : Prog C R α

namespace Prog

/-- Run `f` on the result. -/
def bind : Prog C R α → (α → Prog C R β) → Prog C R β
  | .ret a, f => f a
  | .exec c k, f => .exec c fun r => (k r).bind f

instance : Monad (Prog C R) where
  pure := .ret
  bind := Prog.bind

/-- Issue one command and return its answer. -/
def call (c : C) : Prog C R (R c) := .exec c .ret

@[simp] theorem pure_eq (a : α) : (pure a : Prog C R α) = .ret a := rfl

@[simp] theorem ret_bind (a : α) (f : α → Prog C R β) : (.ret a : Prog C R α) >>= f = f a := rfl

@[simp] theorem exec_bind (c : C) (k : R c → Prog C R α) (f : α → Prog C R β) :
    (.exec c k : Prog C R α) >>= f = .exec c fun r => k r >>= f := rfl

theorem bind_assoc' (p : Prog C R α) (f : α → Prog C R β) {γ : Type} (g : β → Prog C R γ) :
    (p >>= f) >>= g = p >>= fun a => f a >>= g := by
  induction p with
  | ret a => rfl
  | exec c k ih => exact congrArg (Prog.exec c) (funext ih)

end Prog

/-- One command that was issued, with the answer it got. -/
abbrev Event (C : Type) (R : C → Type) : Type := Sigma R

/-- A service: a program that may return early with an error. -/
abbrev Svc (C : Type) (R : C → Type) (ε α : Type) : Type := ExceptT ε (Prog C R) α

namespace Svc

/-- Issue one command. -/
def call (c : C) : Svc C R ε (R c) := ExceptT.lift (Prog.call c)

/-- Return early when `e` is an error. -/
def ofExcept (e : Except ε α) : Svc C R ε α := ExceptT.mk (.ret e)

/-- Rewrite the error `x` ends with, if it ends with one. -/
def mapError (f : ε → ε) (x : Svc C R ε α) : Svc C R ε α :=
  ExceptT.mk (x.run >>= fun r => .ret (match r with
    | .ok a => .ok a
    | .error e => .error (f e)))

/-- Run `x` and hand its outcome on, error or not. -/
def attempt (x : Svc C R ε α) : Svc C R ε (Except ε α) := ExceptT.lift x.run

/-- Run `f` on every element and collect the results, in order. -/
def each (f : α → Svc C R ε β) : List α → Svc C R ε (List β)
  | [] => pure []
  | a :: as => do
      let b ← f a
      let bs ← each f as
      pure (b :: bs)

theorem run_bind (x : Svc C R ε α) (f : α → Svc C R ε β) :
    (x >>= f).run = x.run >>= fun r => match r with
      | .ok a => (f a).run
      | .error e => .ret (.error e) := by
  show Prog.bind _ _ = Prog.bind _ _
  congr 1
  funext r
  cases r <;> rfl

theorem run_attempt_bind (x : Svc C R ε α) (f : Except ε α → Svc C R ε β) :
    (attempt x >>= f).run = x.run >>= fun r => (f r).run := by
  rw [run_bind]
  exact Prog.bind_assoc' x.run (fun r => (.ret (.ok r) : Prog C R (Except ε (Except ε α)))) _

end Svc

/-! ## Contracts

A contract says what a program promises about each command it issues and what
it may rely on about each answer, both in the light of the commands and answers
so far. `wp` is the weakest precondition over it: a program satisfies the
contract from history `tr` when every command it issues is promised, whatever
answers within the reliance come back.
-/

/-- What a program promises about its commands, and relies on about the answers. -/
structure Contract (C : Type) (R : C → Type) where
  /-- The promise: after this history, the program may issue this command. -/
  asks : List (Event C R) → C → Prop
  /-- The reliance: after this history, this command may be answered so. -/
  gets : List (Event C R) → (c : C) → R c → Prop

variable (G : Contract C R)

namespace Prog

/-- From history `tr` the program keeps `G` and ends in `Q`. -/
def wp : List (Event C R) → Prog C R α → (List (Event C R) → α → Prop) → Prop
  | tr, .ret a, Q => Q tr a
  | tr, .exec c k, Q => G.asks tr c ∧ ∀ r, G.gets tr c r → wp (tr ++ [⟨c, r⟩]) (k r) Q

variable {G} {tr : List (Event C R)} {Q Q' : List (Event C R) → α → Prop}

@[simp] theorem wp_ret {a : α} : wp G tr (.ret a) Q ↔ Q tr a := Iff.rfl

theorem wp_exec {c : C} {k : R c → Prog C R α} :
    wp G tr (.exec c k) Q ↔ G.asks tr c ∧ ∀ r, G.gets tr c r → wp G (tr ++ [⟨c, r⟩]) (k r) Q :=
  Iff.rfl

theorem wp_mono {p : Prog C R α} (h : wp G tr p Q) (hQ : ∀ tr a, Q tr a → Q' tr a) :
    wp G tr p Q' := by
  induction p generalizing tr with
  | ret a => exact hQ tr a h
  | exec c k ih => exact ⟨h.1, fun r hr => ih r (h.2 r hr)⟩

theorem wp_and {p : Prog C R α} (h : wp G tr p Q) (h' : wp G tr p Q') :
    wp G tr p fun tr' a => Q tr' a ∧ Q' tr' a := by
  induction p generalizing tr with
  | ret a => exact ⟨h, h'⟩
  | exec c k ih => exact ⟨h.1, fun r hr => ih r (h.2 r hr) (h'.2 r hr)⟩

theorem wp_bind {p : Prog C R α} {f : α → Prog C R β} {Q : List (Event C R) → β → Prop} :
    wp G tr (p >>= f) Q ↔ wp G tr p fun tr' a => wp G tr' (f a) Q := by
  induction p generalizing tr with
  | ret a => rfl
  | exec c k ih =>
    rw [exec_bind, wp_exec, wp_exec]
    exact and_congr Iff.rfl (forall_congr' fun r => imp_congr Iff.rfl (ih r))

@[simp] theorem wp_call {c : C} {Q : List (Event C R) → R c → Prop} :
    wp G tr (.call c) Q ↔ G.asks tr c ∧ ∀ r, G.gets tr c r → Q (tr ++ [⟨c, r⟩]) r := Iff.rfl

/-- A program that keeps a contract keeps one that asks for less and relies on more. -/
theorem wp_weaken {G' : Contract C R} {p : Prog C R α} (h : wp G tr p Q)
    (hasks : ∀ tr c, G.asks tr c → G'.asks tr c)
    (hgets : ∀ tr c r, G'.gets tr c r → G.gets tr c r) : wp G' tr p Q := by
  induction p generalizing tr with
  | ret a => exact h
  | exec c k ih => exact ⟨hasks tr c h.1, fun r hr => ih r (h.2 r (hgets tr c r hr))⟩

/-- A contract that asks for nothing is kept. -/
theorem wp_of_free {p : Prog C R α} (hasks : ∀ tr c, G.asks tr c) (hQ : ∀ tr a, Q tr a) :
    wp G tr p Q := by
  induction p generalizing tr with
  | ret a => exact hQ tr a
  | exec c k ih => exact ⟨hasks tr c, fun r _ => ih r⟩

/-- A contract that asks for no more than an invariant of the history is kept. -/
theorem wp_of_inv {I : List (Event C R) → Prop} {p : Prog C R α} (hasks : ∀ tr c, I tr → G.asks tr c)
    (hstep : ∀ tr c r, I tr → I (tr ++ [⟨c, r⟩])) (h : I tr) (hQ : ∀ tr' a, I tr' → Q tr' a) :
    wp G tr p Q := by
  induction p generalizing tr with
  | ret a => exact hQ tr a h
  | exec c k ih => exact ⟨hasks tr c h, fun r _ => ih r (hstep tr c r h)⟩

/-- Every command the program can issue satisfies `P`, whatever the answers. -/
def Only (P : C → Prop) : Prog C R α → Prop
  | .ret _ => True
  | .exec c k => P c ∧ ∀ r, Only P (k r)

theorem only_mono {P P' : C → Prop} {p : Prog C R α} (h : Only P p) (hP : ∀ c, P c → P' c) :
    Only P' p := by
  induction p with
  | ret a => trivial
  | exec c k ih => exact ⟨hP c h.1, fun r => ih r (h.2 r)⟩

theorem only_bind {P : C → Prop} {p : Prog C R α} {f : α → Prog C R β} (hp : Only P p)
    (hf : ∀ a, Only P (f a)) : Only P (p >>= f) := by
  induction p with
  | ret a => exact hf a
  | exec c k ih => exact ⟨hp.1, fun r => ih r (hp.2 r)⟩

/--
A program whose commands are all harmless keeps any contract that lets harmless
commands through, and only lengthens the history by harmless events.
-/
theorem wp_of_only {P : C → Prop} {p : Prog C R α} (hp : Only P p)
    (hasks : ∀ tr c, P c → G.asks tr c)
    (hQ : ∀ evs : List (Event C R), (∀ ev ∈ evs, P ev.1) → ∀ a, Q (tr ++ evs) a) :
    wp G tr p Q := by
  induction p generalizing tr with
  | ret a => simpa using hQ [] (by simp) a
  | exec c k ih =>
    refine ⟨hasks tr c hp.1, fun r _ => ih r (hp.2 r) (fun evs hevs a => ?_)⟩
    rw [List.append_assoc]
    refine hQ _ (fun ev hev => ?_) a
    rcases List.mem_append.mp hev with h | h
    · rw [List.mem_singleton.mp h]
      exact hp.1
    · exact hevs ev h

/-- The same, when what the program may ask depends on an invariant of the history. -/
theorem wp_of_only_inv {P : C → Prop} {I : List (Event C R) → Prop} {p : Prog C R α}
    (hp : Only P p) (hasks : ∀ tr c, I tr → P c → G.asks tr c)
    (hstep : ∀ tr c r, I tr → P c → G.gets tr c r → I (tr ++ [⟨c, r⟩])) (h : I tr)
    (hQ : ∀ tr' a, I tr' → Q tr' a) : wp G tr p Q := by
  induction p generalizing tr with
  | ret a => exact hQ tr a h
  | exec c k ih =>
    exact ⟨hasks tr c h hp.1, fun r hr => ih r (hp.2 r) (hstep tr c r h hp.1 hr)⟩

end Prog

/-! ### Services

A service that returns early issues nothing more, so a promise about what a
service does after it need only look at the results that are not errors.
-/

namespace Svc

variable {G} {tr : List (Event C R)} {Q Q' : List (Event C R) → α → Prop}

/-- From history `tr` the service keeps `G`, and ends in `Q` unless it returns early. -/
def wp (G : Contract C R) (tr : List (Event C R)) (x : Svc C R ε α)
    (Q : List (Event C R) → α → Prop) : Prop :=
  Prog.wp G tr x.run fun tr' r => ∀ a, r = .ok a → Q tr' a

theorem wp_mono {x : Svc C R ε α} (h : wp G tr x Q) (hQ : ∀ tr a, Q tr a → Q' tr a) :
    wp G tr x Q' :=
  Prog.wp_mono h fun tr _ h a ha => hQ tr a (h a ha)

@[simp] theorem wp_pure {a : α} : wp G tr (pure a : Svc C R ε α) Q ↔ Q tr a :=
  ⟨fun h => h a rfl, fun h b hb => by cases hb; exact h⟩

@[simp] theorem wp_throw {e : ε} : wp G tr (throw e : Svc C R ε α) Q ↔ True :=
  ⟨fun _ => trivial, fun _ _ ha => nomatch ha⟩

@[simp] theorem wp_bind {x : Svc C R ε α} {f : α → Svc C R ε β}
    {Q : List (Event C R) → β → Prop} :
    wp G tr (x >>= f) Q ↔ wp G tr x fun tr' a => wp G tr' (f a) Q := by
  unfold wp
  rw [run_bind, Prog.wp_bind]
  constructor <;> intro h <;> refine Prog.wp_mono h (fun tr' r hr => ?_)
  · rintro a rfl
    exact hr
  · cases r with
    | ok a => exact hr a rfl
    | error e => exact fun _ ha => nomatch ha

@[simp] theorem wp_call {c : C} {Q : List (Event C R) → R c → Prop} :
    wp G tr (call c : Svc C R ε (R c)) Q ↔
      G.asks tr c ∧ ∀ r, G.gets tr c r → Q (tr ++ [⟨c, r⟩]) r := by
  refine and_congr Iff.rfl (forall_congr' fun r => imp_congr Iff.rfl ?_)
  exact ⟨fun h => h r rfl, fun h a ha => by cases ha; exact h⟩

@[simp] theorem wp_ofExcept {e : Except ε α} :
    wp G tr (ofExcept e : Svc C R ε α) Q ↔ ∀ a, e = .ok a → Q tr a := Iff.rfl

@[simp] theorem wp_mapError {f : ε → ε} {x : Svc C R ε α} :
    wp G tr (mapError f x) Q ↔ wp G tr x Q := by
  show Prog.wp G tr (x.run >>= _) _ ↔ _
  rw [Prog.wp_bind]
  constructor <;> intro h <;> refine Prog.wp_mono h (fun tr' r hr => ?_)
  · rintro a rfl
    exact hr a rfl
  · cases r with
    | ok a => exact fun b hb => by cases hb; exact hr a rfl
    | error e => exact fun _ ha => nomatch ha

/-- Two ways a history can go on: the service returned a value, or it returned early. -/
theorem wp_attempt {x : Svc C R ε α} {Q : List (Event C R) → Except ε α → Prop}
    (h : Prog.wp G tr x.run Q) : wp G tr (attempt x) Q := by
  show Prog.wp G tr (x.run >>= _) _
  rw [Prog.wp_bind]
  exact Prog.wp_mono h fun tr' r hr a ha => by cases ha; exact hr

/-- From history `tr` the service keeps `G`, and ends in `Q`, with a result or an error. -/
def ends (G : Contract C R) (tr : List (Event C R)) (x : Svc C R ε α)
    (Q : List (Event C R) → Except ε α → Prop) : Prop := Prog.wp G tr x.run Q

section

variable {Q Q' : List (Event C R) → Except ε α → Prop}

theorem ends_mono {x : Svc C R ε α} (h : ends G tr x Q) (hQ : ∀ tr r, Q tr r → Q' tr r) :
    ends G tr x Q' := Prog.wp_mono h hQ

@[simp] theorem ends_pure {a : α} : ends G tr (pure a : Svc C R ε α) Q ↔ Q tr (.ok a) := Iff.rfl

@[simp] theorem ends_throw {e : ε} : ends G tr (throw e : Svc C R ε α) Q ↔ Q tr (.error e) :=
  Iff.rfl

@[simp] theorem ends_ofExcept {r : Except ε α} :
    ends G tr (ofExcept r : Svc C R ε α) Q ↔ Q tr r := Iff.rfl

/-- What follows is only run after a result. -/
theorem ends_bind {x : Svc C R ε β} {f : β → Svc C R ε α} :
    ends G tr (x >>= f) Q ↔ ends G tr x fun tr' r => match r with
      | .ok a => ends G tr' (f a) Q
      | .error e => Q tr' (.error e) := by
  unfold ends
  rw [run_bind, Prog.wp_bind]
  constructor <;> intro h <;> refine Prog.wp_mono h (fun tr' r hr => ?_)
  · cases r <;> exact hr
  · cases r <;> exact hr

theorem ends_call {c : C} {Q : List (Event C R) → Except ε (R c) → Prop} :
    ends G tr (call c : Svc C R ε (R c)) Q ↔
      G.asks tr c ∧ ∀ r, G.gets tr c r → Q (tr ++ [⟨c, r⟩]) (.ok r) := Iff.rfl

theorem ends_mapError {f : ε → ε} {x : Svc C R ε α} :
    ends G tr (mapError f x) Q ↔ ends G tr x fun tr' r => Q tr' (r.mapError f) := by
  show Prog.wp G tr (x.run >>= _) _ ↔ _
  rw [Prog.wp_bind]
  constructor <;> intro h <;> refine Prog.wp_mono h (fun tr' r hr => ?_)
  · cases r <;> exact hr
  · cases r <;> exact hr

theorem ends_attempt {x : Svc C R ε β} {Q : List (Event C R) → Except ε (Except ε β) → Prop} :
    ends G tr (attempt x) Q ↔ ends G tr x fun tr' r => Q tr' (.ok r) := by
  show Prog.wp G tr (x.run >>= _) _ ↔ _
  rw [Prog.wp_bind]
  exact Iff.rfl

end

/-- A loop keeps an invariant of the history. -/
theorem wp_each {f : α → Svc C R ε β} {I : List (Event C R) → Prop} (as : List α)
    (hstep : ∀ a ∈ as, ∀ tr, I tr → wp G tr (f a) fun tr' _ => I tr') {tr : List (Event C R)}
    (h : I tr) : wp G tr (each f as) fun tr' _ => I tr' := by
  induction as generalizing tr with
  | nil => exact wp_pure.mpr h
  | cons a as ih =>
    simp only [each, wp_bind, wp_pure]
    refine wp_mono (hstep a (by simp) tr h) (fun tr' _ h' => ?_)
    exact ih (fun b hb => hstep b (by simp [hb])) h'

/-- Every command the service can issue satisfies `P`, whatever the answers. -/
def Only (P : C → Prop) (x : Svc C R ε α) : Prop := Prog.Only P x.run

variable {P : C → Prop}

theorem only_pure {a : α} : Only P (pure a : Svc C R ε α) := trivial

theorem only_throw {e : ε} : Only P (throw e : Svc C R ε α) := trivial

theorem only_ofExcept {e : Except ε α} : Only P (ofExcept e : Svc C R ε α) := trivial

theorem only_call {c : C} (h : P c) : Only P (call c : Svc C R ε (R c)) := ⟨h, fun _ => trivial⟩

theorem only_bind {x : Svc C R ε α} {f : α → Svc C R ε β} (hx : Only P x)
    (hf : ∀ a, Only P (f a)) : Only P (x >>= f) := by
  unfold Only
  rw [run_bind]
  refine Prog.only_bind hx (fun r => ?_)
  cases r with
  | ok a => exact hf a
  | error e => trivial

theorem only_mapError {f : ε → ε} {x : Svc C R ε α} (hx : Only P x) : Only P (mapError f x) :=
  Prog.only_bind hx fun _ => trivial

theorem only_attempt {x : Svc C R ε α} (hx : Only P x) : Only P (attempt x) :=
  Prog.only_bind hx fun _ => trivial

theorem only_each {f : α → Svc C R ε β} (hf : ∀ a, Only P (f a)) (as : List α) :
    Only P (each f as) := by
  induction as with
  | nil => exact only_pure
  | cons a as ih => exact only_bind (hf a) fun _ => only_bind ih fun _ => only_pure

/-- A service whose commands are all harmless adds only harmless events. -/
theorem wp_of_only {x : Svc C R ε α} (hx : Only P x) (hasks : ∀ tr c, P c → G.asks tr c)
    (hQ : ∀ evs : List (Event C R), (∀ ev ∈ evs, P ev.1) → ∀ a, Q (tr ++ evs) a) :
    wp G tr x Q :=
  Prog.wp_of_only hx hasks fun evs hevs _ a _ => hQ evs hevs a

end Svc

/-! ## Programs over a state

A history is not always what a promise is about: where each command acts on a
state that the program cannot see, `Safe` asks for every state it can meet, and
`eval` runs the program when the state decides the answers.
-/

namespace Prog

variable {σ : Type} {P : σ → C → Prop} {T : σ → (c : C) → R c → σ → Prop}

/--
Every command is issued in a state that `P` allows, and the program ends in `Q`,
where `T` says which answers a command can get in a state and what it leaves.
-/
def Safe (P : σ → C → Prop) (T : σ → (c : C) → R c → σ → Prop) :
    Prog C R α → (σ → α → Prop) → σ → Prop
  | .ret a, Q, s => Q s a
  | .exec c k, Q, s => P s c ∧ ∀ r s', T s c r s' → Safe P T (k r) Q s'

variable {Q Q' : σ → α → Prop} {s : σ}

@[simp] theorem safe_ret {a : α} : Safe P T (.ret a) Q s ↔ Q s a := Iff.rfl

@[simp] theorem safe_call {c : C} {Q : σ → R c → Prop} :
    Safe P T (.call c) Q s ↔ P s c ∧ ∀ r s', T s c r s' → Q s' r := Iff.rfl

theorem Safe.mono {p : Prog C R α} (h : Safe P T p Q s) (hQ : ∀ s a, Q s a → Q' s a) :
    Safe P T p Q' s := by
  induction p generalizing s with
  | ret a => exact hQ s a h
  | exec c k ih => exact ⟨h.1, fun r s' hr => ih r (h.2 r s' hr)⟩

theorem safe_bind {p : Prog C R β} {f : β → Prog C R α} :
    Safe P T (p >>= f) Q s ↔ Safe P T p (fun s' b => Safe P T (f b) Q s') s := by
  induction p generalizing s with
  | ret a => rfl
  | exec c k ih =>
    exact and_congr Iff.rfl (forall_congr' fun r => forall_congr' fun s' =>
      imp_congr Iff.rfl (ih r))

/-- Run the program in a state that decides the answers. -/
def eval (f : σ → (c : C) → R c × σ) : Prog C R α → σ → α × σ
  | .ret a, s => (a, s)
  | .exec c k, s => eval f (k (f s c).1) (f s c).2

variable {f : σ → (c : C) → R c × σ}

@[simp] theorem eval_ret {a : α} : eval f (.ret a) s = (a, s) := rfl

@[simp] theorem eval_call {c : C} : eval f (.call c) s = f s c := rfl

theorem eval_bind {p : Prog C R β} {g : β → Prog C R α} :
    eval f (p >>= g) s = eval f (g (eval f p s).1) (eval f p s).2 := by
  induction p generalizing s with
  | ret a => rfl
  | exec c k ih => exact ih _

end Prog

end ReadCommitted
