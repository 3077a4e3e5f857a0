import ExpenseSaas.ReadCommitted.Runs
import ExpenseSaas.ReadCommitted.Solo

/-!
# Two runs that agree

A program that keeps a contract is run alone in two databases. If they agree to
begin with, every command it may issue is answered the same in both, and they go
on agreeing, then the program returns the same and the databases agree in the end
(`Agreement.serve`).

What it means to agree is left open: `base` is about committed databases, `inside`
about what a transaction with a given history sees, which may say more.
-/

namespace ReadCommitted

namespace Prog

variable {C : Type} {R : C → Type} {α σ : Type} {f : σ → (c : C) → R c × σ} {G : Contract C R}
  {Sim : List (Event C R) → σ → σ → Prop} {Q : List (Event C R) → α → Prop}

/-- **Where the answers agree, so do the runs.** -/
theorem eval_agree (hstep : ∀ tr c s s', G.asks tr c → Sim tr s s' → (f s' c).1 = (f s c).1 ∧
      G.gets tr c (f s c).1 ∧ Sim (tr ++ [⟨c, (f s c).1⟩]) (f s c).2 (f s' c).2)
    {p : Prog C R α} {tr : List (Event C R)} {s s' : σ} (h : wp G tr p Q) (hs : Sim tr s s') :
    (eval f p s').1 = (eval f p s).1 ∧ ∃ tr', Sim tr' (eval f p s).2 (eval f p s').2 := by
  induction p generalizing tr s s' with
  | ret a => exact ⟨rfl, tr, hs⟩
  | exec c k ih =>
    obtain ⟨hr, hgets, hsim⟩ := hstep tr c s s' h.1 hs
    -- one answer, so both go on with one program
    unfold eval
    rw [hr]
    exact ih _ (h.2 _ hgets) hsim

end Prog

variable {E : Engine}

/-- Two outcomes of a statement: the same error, or the same answer and databases with `P`. -/
inductive Outcomes {β : Type} (P : β → E.D → E.D → Prop) :
    Except E.ε (β × E.D) → Except E.ε (β × E.D) → Prop where
  | ok {r d d'} : P r d d' → Outcomes P (.ok (r, d)) (.ok (r, d'))
  | error {e} : Outcomes P (.error e) (.error e)

/-- What it is for two databases to agree, and that statements respect it. -/
structure Engine.Agreement (E : Engine) (asks : E.History → E.Cmd → Prop) (okay : E.O → Prop) where
  /-- Committed databases agree. -/
  base : E.D → E.D → Prop
  /-- What the transactions with this history see agrees. -/
  inside : E.History → E.D → E.D → Prop
  begin : ∀ {tr d d'}, asks tr .begin → base d d' → inside (tr ++ [⟨.begin, .ok ()⟩]) d d'
  commit : ∀ {tr d d'}, inside tr d d' → base d d'
  ext : ∀ {tr d d' o} x, okay o → inside tr d d' → inside (tr ++ [⟨.ext x, E.answer o x⟩]) d d'
  failed : ∀ {tr d d'} q e, inside tr d d' → inside (tr ++ [⟨.sql q, .error e⟩]) d d'
  sql : ∀ {tr q clock o d d'}, asks tr (.sql q) → okay clock → okay o → inside tr d d' →
    Outcomes (fun r e e' => inside (tr ++ [⟨.sql q, .ok r⟩]) e e') (E.alone q clock o d)
      (E.alone q clock o d')

/-! ## Answers -/

/-- What an update writes, it writes to rows it visits. -/
theorem Engine.visit_done {apply : E.K → E.D → Option (Except E.ε E.W)} {P : E.W → Prop}
    (hP : ∀ k d v, apply k d = some (.ok v) → P v) {keys : List E.K} {d d' : E.D}
    {done ws : List E.W}
    (h : E.visit apply keys d done = .ok (ws, d')) (hdone : ∀ v ∈ done, P v) : ∀ v ∈ ws, P v := by
  induction keys generalizing d done with
  | nil =>
    cases h
    exact hdone
  | cons k rest ih =>
    unfold Engine.visit at h
    split at h
    · exact ih h hdone
    · cases h
    · rename_i v hv
      refine ih h fun u hu => ?_
      rcases List.mem_append.mp hu with hu | hu
      · exact hdone u hu
      · obtain rfl := List.mem_singleton.mp hu
        exact hP k d u hv

/-- What a statement answers alone it can answer. -/
theorem Engine.possible_of_alone {q : E.S} {clock o : E.O} {d d' : E.D} {r : E.RS q}
    (h : E.alone q clock o d = .ok (r, d')) : E.Possible (.sql q) (.ok r) := by
  unfold Engine.alone at h
  simp only [Engine.Possible]
  cases hq : E.sem q with
  | query read =>
    rw [hq] at h
    dsimp only at h ⊢
    cases hr : read d clock o with
    | error e =>
      rw [hr] at h
      cases h
    | ok x =>
      rw [hr] at h
      cases h
      exact ⟨d, clock, o, hr⟩
  | insert row resp =>
    rw [hq] at h
    dsimp only at h ⊢
    cases hr : row d clock o with
    | error e =>
      rw [hr] at h
      cases h
    | ok w =>
      rw [hr] at h
      dsimp only at h
      split at h
      · cases h
      · cases h
        exact ⟨d, clock, o, w, hr, rfl⟩
  | update targets apply resp =>
    rw [hq] at h
    dsimp only at h ⊢
    cases hv : E.visit (fun k cur => apply d cur clock k) (targets d) d [] with
    | error e =>
      rw [hv] at h
      cases h
    | ok x =>
      rw [hv] at h
      cases h
      refine ⟨x.1, rfl, E.visit_done (fun k cur v hk => ⟨d, cur, clock, k, hk⟩) hv fun v hv => ?_⟩
      exact absurd hv List.not_mem_nil

/-! ## Two clients -/

variable {asks : E.History → E.Cmd → Prop} {okay : E.O → Prop}

/-- Two clients at the same place, in databases that agree. -/
inductive Engine.Agreement.Twins (A : E.Agreement asks okay) (tr : E.History) :
    Solo E → Solo E → Prop where
  | closed {d d' n} : A.base d d' → Twins A tr ⟨d, none, n⟩ ⟨d', none, n⟩
  | opened {d d' clock v v' failed n} : A.base d d' → okay clock → A.inside tr v v' →
      Twins A tr ⟨d, some ⟨clock, v, failed⟩, n⟩ ⟨d', some ⟨clock, v', failed⟩, n⟩

namespace Engine.Agreement

variable (A : E.Agreement asks okay) {env : Nat → E.O} {tr : E.History} {s s' : Solo E}

theorem Twins.base {A : E.Agreement asks okay} (h : A.Twins tr s s') : A.base s.db s'.db := by
  cases h with
  | closed h => exact h
  | opened h _ _ => exact h

/-- Twins are given the same answer, and stay twins. -/
theorem twins_step (henv : ∀ n, okay (env n)) {c : E.Cmd} (hc : asks tr c) (h : A.Twins tr s s') :
    (Solo.step env s' c).1 = (Solo.step env s c).1 ∧ E.Possible c (Solo.step env s c).1 ∧
      A.Twins (tr ++ [⟨c, (Solo.step env s c).1⟩])
        (Solo.step env s c).2 (Solo.step env s' c).2 := by
  cases c with
  | begin =>
    cases h with
    | closed hb => exact ⟨rfl, trivial, .opened hb (henv _) (A.begin hc hb)⟩
    | opened hb ho hi => exact ⟨rfl, trivial, .opened hb ho (A.begin hc (A.commit hi))⟩
  | commit =>
    cases h with
    | closed hb => exact ⟨rfl, trivial, .closed hb⟩
    | @opened d d' clock v v' failed n hb ho hi =>
      cases failed with
      | false => exact ⟨rfl, trivial, .closed (A.commit hi)⟩
      | true =>
        -- the `COMMIT` of a failed transaction rolls it back
        exact ⟨rfl, trivial, .closed hb⟩
  | rollback =>
    cases h with
    | closed hb => exact ⟨rfl, trivial, .closed hb⟩
    | opened hb _ _ => exact ⟨rfl, trivial, .closed hb⟩
  | ext x =>
    cases h with
    | closed hb => exact ⟨rfl, ⟨_, rfl⟩, .closed hb⟩
    | opened hb ho hi => exact ⟨rfl, ⟨_, rfl⟩, .opened hb ho (A.ext x (henv _) hi)⟩
  | sql q =>
    cases h with
    | closed hb => exact ⟨rfl, trivial, .closed hb⟩
    | @opened d d' clock v v' failed n hb ho hi =>
      cases failed with
      | true => exact ⟨rfl, trivial, .opened hb ho (A.failed q _ hi)⟩
      | false =>
        -- the statement sees the two views of the transaction, not the committed databases
        have hout := A.sql hc ho (henv n) hi
        unfold Solo.step
        dsimp only [Bool.false_eq_true, if_false]
        generalize hx : E.alone q clock (env n) v = x at hout
        generalize E.alone q clock (env n) v' = x' at hout
        cases hout with
        | ok hr => exact ⟨rfl, E.possible_of_alone hx, .opened hb ho hr⟩
        | error => exact ⟨rfl, trivial, .opened hb ho (A.failed q _ hi)⟩

/-- **A call made alone in two databases that agree** returns the same, and they agree after it. -/
theorem serve {c : E.L} {post : E.History → E.A → Prop} (henv : ∀ n, okay (env n))
    (hcode : Prog.wp (E.contract asks) [] (E.code c) post) {d d' : E.D} (h : A.base d d') :
    (E.serve env c d').1 = (E.serve env c d).1 ∧
      A.base (E.serve env c d).2 (E.serve env c d').2 := by
  have hstep : ∀ tr c s s', (E.contract asks).asks tr c → A.Twins tr s s' →
      (Solo.step env s' c).1 = (Solo.step env s c).1 ∧
        (E.contract asks).gets tr c (Solo.step env s c).1 ∧
        A.Twins (tr ++ [⟨c, (Solo.step env s c).1⟩]) (Solo.step env s c).2 (Solo.step env s' c).2 :=
    fun tr c s s' hc hs => A.twins_step henv hc hs
  have hinit : A.Twins [] (.init d) (.init d') := .closed h
  obtain ⟨hr, tr', hs⟩ := Prog.eval_agree hstep hcode hinit
  exact ⟨hr, hs.base⟩

end Engine.Agreement

end ReadCommitted
