import ExpenseSaas.ReadCommitted.History

/-!
# What an answer is worth

A statement that writes answers from the row versions it wrote. As long as the
transaction is open and has not failed, all of them are among its writes, so a
client that commits after such an answer commits these versions
(`Reachable.backed`).
-/

namespace ReadCommitted

variable {E : Engine} {C : World E → Action E → Prop} {d₀ : E.D} {w : World E}

theorem Engine.mem_current_sql {tr : E.History} {q : E.S} {r : E.Resp (.sql q)} :
    (⟨.sql q, r⟩ : Event E.Cmd E.Resp) ∈ E.current (tr ++ [⟨.sql q, r⟩]) := by
  rw [Engine.current_sql]
  exact List.mem_append_right _ (List.mem_singleton_self _)

/-- The statement has written `vs` and answered `r`. -/
def Sem.Made {D O W K ε β : Type} : Sem D O W K ε β → List W → β → Prop
  | .query _, vs, _ => vs = []
  | .insert _ resp, vs, r => ∃ v, vs = [v] ∧ r = resp v
  | .update _ _ resp, vs, r => r = resp vs

/-- What the open transaction was answered is made of what it has written. -/
structure Session.Backed (s : Session E) : Prop where
  answers : ∀ t, s.txn = some t → t.failed = false → ∀ (q : E.S) (r : E.RS q),
    (⟨.sql q, .ok r⟩ : Event E.Cmd E.Resp) ∈ E.current s.trace →
      ∃ vs, (E.sem q).Made vs r ∧ vs ⊆ s.writes
  pending : ∀ p, s.pending = some p → p.done ⊆ s.writes

section

variable {d : E.D} {others : List E.W} {o : E.O} {s s' : Session E} {d' : Option E.D}

theorem Session.done_of_settled {p : Pending E} (hp : s.pending = none)
    (h : s.pending = some p) : p.done ⊆ s.writes := by
  rw [hp] at h
  cases h

theorem Session.backed_of_closed (ht : s.txn = none) (hp : s.pending = none) : s.Backed where
  answers t h := by
    rw [ht] at h
    cases h
  pending _ := Session.done_of_settled hp

theorem Session.backed_of_failed {t : Txn E} (ht : s.txn = some t) (hf : t.failed = true)
    (hp : s.pending = none) : s.Backed where
  answers t' h h' := by
    cases ht.symm.trans h
    rw [hf] at h'
    cases h'
  pending _ := Session.done_of_settled hp

/-- A statement is answered, and the transaction has written no less than before. -/
theorem Session.Backed.answered (h : s.Backed) {t : Txn E} (ht : s.txn = some t)
    (hf : t.failed = false) {q : E.S} {r : E.RS q} {vs : List E.W} (hmade : (E.sem q).Made vs r)
    (hvs : vs ⊆ s'.writes) (hwr : s.writes ⊆ s'.writes)
    (htr : s'.trace = s.trace ++ [⟨.sql q, .ok r⟩]) (hp : s'.pending = none) : s'.Backed where
  answers t' _ _ q' r' hev := by
    rw [htr, Engine.current_sql] at hev
    rcases List.mem_append.mp hev with hev | hev
    · obtain ⟨us, hus, hsub⟩ := h.answers t ht hf q' r' hev
      exact ⟨us, hus, List.Subset.trans hsub hwr⟩
    · cases List.mem_singleton.mp hev
      exact ⟨vs, hmade, hvs⟩
  pending _ := Session.done_of_settled hp

/-- An update goes on. -/
theorem Session.Backed.wait (h : s.Backed) {t : Txn E} (ht : s.txn = some t)
    (hf : t.failed = false) (hwr : s.writes ⊆ s'.writes) (htr : s'.trace = s.trace)
    (hp : ∀ p, s'.pending = some p → p.done ⊆ s'.writes) : s'.Backed where
  answers t' _ _ q r hev := by
    rw [htr] at hev
    obtain ⟨vs, hvs, hsub⟩ := h.answers t ht hf q r hev
    exact ⟨vs, hvs, List.Subset.trans hsub hwr⟩
  pending := hp

theorem Move.backed (hm : Move d others o s s' d') (h : s.Backed) : s'.Backed := by
  cases hm with
  | begin hp ht =>
    refine ⟨fun t _ _ q r hev => ?_, fun p => Session.done_of_settled rfl⟩
    simp only [Session.answered, Engine.current_begin] at hev
    exact absurd hev List.not_mem_nil
  | commit hp ht hf => exact Session.backed_of_closed rfl rfl
  | abandon hp ht hf => exact Session.backed_of_closed rfl rfl
  | rollback hp => exact Session.backed_of_closed rfl rfl
  | ext hp =>
    refine ⟨fun t ht hf q r hev => ?_, fun p => Session.done_of_settled rfl⟩
    simp only [Session.answered, Engine.current_ext] at hev
    exact h.answers t ht hf q r hev
  | barred hp ht hf => exact Session.backed_of_failed ht hf rfl
  | @query q k t read r hp ht hf hq hr =>
    have hmade : (E.sem q).Made [] r := by
      rw [hq]
      rfl
    exact h.answered ht hf hmade (List.nil_subset _) (List.Subset.refl _) rfl rfl
  | refused hp ht hf hr => exact Session.backed_of_failed (Session.txn_undone ht) rfl rfl
  | @insert q k t row resp v hp ht hf hq hr hu hc =>
    have hmade : (E.sem q).Made [v] (resp v) := by
      rw [hq]
      exact ⟨v, rfl, rfl⟩
    have hwr := Session.writes_wrote (w := v) ht
    refine h.answered ht hf hmade ?_ ?_ rfl rfl
    · -- the row inserted is among the writes that the answer is made from
      show [v] ⊆ (s.wrote v).writes
      rw [hwr]
      exact List.subset_append_right _ _
    · show s.writes ⊆ (s.wrote v).writes
      rw [hwr]
      exact List.subset_append_left _ _
  | snapshot hp ht hf hq hpe =>
    refine h.wait ht hf (List.Subset.refl _) rfl (fun p hp' => ?_)
    -- a snapshot has nothing done yet
    cases hp'
    exact List.nil_subset _
  | @skip q k t targets apply resp p key rest hp ht hf hq hpe hto hl ha =>
    refine h.wait ht hf (List.Subset.refl _) rfl (fun p' hp' => ?_)
    cases hp'
    exact h.pending p hpe
  | @write q k t targets apply resp p key rest v hp ht hf hq hpe hto hl ha =>
    have hwr : (s.wrote v).writes = s.writes ++ [v] := Session.writes_wrote ht
    -- the row just written joins what this statement has done
    have hsub : s.writes ⊆ (s.wrote v).writes := by
      rw [hwr]
      exact List.subset_append_left _ _
    have hdone : p.done ++ [v] ⊆ (s.wrote v).writes := by
      rw [hwr]
      exact List.append_subset.mpr ⟨List.Subset.trans (h.pending p hpe)
        (List.subset_append_left _ _), List.subset_append_right _ _⟩
    refine h.wait ht hf hsub rfl (fun p' hp' => ?_)
    cases hp'
    exact hdone
  | @finish q k t targets apply resp p hp ht hf hq hpe hto =>
    have hmade : (E.sem q).Made p.done (resp p.done) := by
      rw [hq]
      rfl
    exact h.answered ht hf hmade (h.pending p hpe) (List.Subset.refl _) rfl rfl

theorem Broken.backed (hb : Broken s s') : s'.Backed := by
  cases hb with
  | @sql q k e hp =>
    refine ⟨fun t ht hf => ?_, fun p => Session.done_of_settled rfl⟩
    cases htx : s.txn with
    | none => simp [Session.answered, Session.undone, htx] at ht
    | some u =>
      cases (Session.txn_undone htx).symm.trans ht
      cases hf
  | begin e hp => exact Session.backed_of_closed rfl rfl
  | commit e hp => exact Session.backed_of_closed rfl rfl
  | rollback e hp => exact Session.backed_of_closed rfl rfl

end

/-- **In every run an open transaction has written what it was answered.** -/
theorem Reachable.backed {i : Nat} {s : Session E} (h : Reachable C (.init d₀) w)
    (hs : w.sessions[i]? = some s) : s.Backed := by
  refine h.session_rule (P := fun _ _ _ s => s.Backed) ?_ ?_ ?_ ?_ i s hs
  · intro w c _ _
    exact Session.backed_of_closed rfl rfl
  · intro w i o s s' d' _ _ hall hs hm
    exact hm.backed (hall i s hs)
  · intro w i s s' _ _ _ hb
    exact hb.backed
  · intro w i j o s s' t d' _ _ hall _ _ ht _
    exact hall j t ht

end ReadCommitted
