import ExpenseSaas.ReadCommitted.History

/-!
# Who waits for whom

A session waits for another one when its update has come to a row the other has
written, or when the row it inserts breaks a unique index over a row of the
other's. Keys are taken to be generated, so two insertions never wait for each
other on a primary key.

A deadlock is a cycle of such waits. `not_cyclic` and `exists_end` exclude it
where a measure grows along the waits, which is what a fixed order of locking
gives. `Session.Source` says what the rows are that a session is waited for:
written by an earlier statement of its transaction, or by the one it is at.
-/

namespace ReadCommitted

/-! ## Chains -/

section

variable {α : Type} {R : α → α → Prop} {g : α → Nat}

/-- Along a chain that goes on at both ends the measure grows. -/
theorem lt_of_chain (hR : ∀ p a b c, R p a → R a b → R b c → g a < g b) {p a b c : α} (hp : R p a)
    (h : Relation.TransGen R a b) (hc : R b c) : g a < g b := by
  induction h generalizing c with
  | single hab => exact hR p a _ c hp hab hc
  | @tail x y hx hxy ih =>
    have hlast : ∃ z, R z x := by
      cases hx with
      | single hax => exact ⟨_, hax⟩
      | tail _ hzx => exact ⟨_, hzx⟩
    obtain ⟨z, hz⟩ := hlast
    exact Nat.lt_trans (ih hxy) (hR z x y c hz hxy hc)

/-- **There is no cycle** along which a measure grows. -/
theorem not_cyclic (hR : ∀ p a b c, R p a → R a b → R b c → g a < g b) (a : α) :
    ¬ Relation.TransGen R a a := by
  intro h
  obtain ⟨b, hb⟩ : ∃ b, R a b := by
    rcases Relation.TransGen.head'_iff.mp h with ⟨b, hb, _⟩
    exact ⟨b, hb⟩
  obtain ⟨p, hp⟩ : ∃ p, R p a := by
    rcases Relation.TransGen.tail'_iff.mp h with ⟨p, _, hp⟩
    exact ⟨p, hp⟩
  exact absurd (lt_of_chain hR hp h hb) (Nat.lt_irrefl _)

/-- **Every chain ends**, where the measure is bounded. -/
theorem exists_end (hR : ∀ p a b c, R p a → R a b → R b c → g a < g b) {n : Nat}
    (hbound : ∀ a, g a ≤ n) {a b : α} (hab : R a b) :
    ∃ c, Relation.TransGen R a c ∧ ∀ d, ¬ R c d := by
  -- By induction on what the measure of `b` has left to grow.
  have hind : ∀ m p a b, n - g a < m → R p a → R a b → ∃ c, Relation.TransGen R a c ∧ ∀ d, ¬ R c d := by
    intro m
    induction m with
    | zero =>
      intro p a b hm _ _
      exact absurd hm (Nat.not_lt_zero _)
    | succ m ih =>
      intro p a b hm hp hab
      by_cases hend : ∃ c, R b c
      · obtain ⟨c, hbc⟩ := hend
        have hlt := hR p a b c hp hab hbc
        have hb := hbound b
        obtain ⟨x, hx, hlast⟩ := ih a b c (by omega) hab hbc
        exact ⟨x, .head hab hx, hlast⟩
      · exact ⟨b, .single hab, fun d hd => hend ⟨d, hd⟩⟩
  by_cases hend : ∃ c, R b c
  · obtain ⟨c, hbc⟩ := hend
    obtain ⟨x, hx, hlast⟩ := hind (n - g b + 1) a b c (Nat.lt_succ_self _) hab hbc
    exact ⟨x, .head hab hx, hlast⟩
  · exact ⟨b, .single hab, fun d hd => hend ⟨d, hd⟩⟩

end

variable {E : Engine} {C : World E → Action E → Prop} {d₀ : E.D} {w : World E}

/-! ## Waiting -/

/-- The statement session `s` is at cannot go on before `v` is committed or undone. -/
inductive Session.Blocked (d : E.D) (s : Session E) (q : E.S) (v : E.W) : Prop where
  | update {k t targets apply resp p rest} : s.prog = .exec (.sql q) k → s.txn = some t →
      t.failed = false → E.sem q = .update targets apply resp → s.pending = some p →
      p.todo = E.lock v :: rest → Blocked d s q v
  | insert {k t row resp} (o : E.O) (u : E.W) : s.prog = .exec (.sql q) k → s.txn = some t →
      t.failed = false → E.sem q = .insert row resp → row (s.view d) t.clock o = .ok u →
      E.taken (s.view d) u = false → E.clash u v = true → E.lock u ≠ E.lock v → Blocked d s q v

/-- Session `i` waits for session `j`. -/
def World.Waits (w : World E) (i j : Nat) : Prop := ∃ s t q v, i ≠ j ∧ w.sessions[i]? = some s ∧
  w.sessions[j]? = some t ∧ v ∈ t.writes ∧ s.Blocked w.db q v

/-- The row the update of a session has come to. -/
def Session.next (s : Session E) : Option E.K := match s.prog, s.txn, s.pending with
  | .exec (.sql q) _, some t, some p => match E.sem q with
    | .update _ _ _ => if t.failed then none else p.todo.head?
    | _ => none
  | _, _, _ => none

theorem Session.blocked_of_next {d : E.D} {s : Session E} {v : E.W} (h : s.next = some (E.lock v)) :
    ∃ q, s.Blocked d q v := by
  unfold Session.next at h
  split at h
  · rename_i q k t p hp ht hpe
    split at h
    · rename_i targets apply resp hq
      by_cases hf : t.failed
      · rw [if_pos hf] at h
        cases h
      · rw [if_neg hf] at h
        obtain ⟨rest, hto⟩ := List.head?_eq_some_iff.mp h
        exact ⟨q, .update hp ht (Bool.not_eq_true _ ▸ hf) hq hpe hto⟩
    · cases h
  · cases h

/-- An update waits for whoever holds the row it has come to. -/
theorem World.waits_of_next {i j : Nat} {s t : Session E} {k : E.K} (hij : i ≠ j)
    (hs : w.sessions[i]? = some s) (ht : w.sessions[j]? = some t) (hk : t.Holds k) (hn : s.next = some k) :
    w.Waits i j := by
  obtain ⟨v, hv, rfl⟩ := hk
  obtain ⟨q, hb⟩ := Session.blocked_of_next (d := w.db) hn
  exact ⟨s, t, q, v, hij, hs, ht, hv, hb⟩

/-- Whoever waits takes no step. -/
theorem Session.Blocked.step_eq_none {d : E.D} {s : Session E} {q : E.S} {v : E.W} {others : List E.W}
    (h : s.Blocked d q v) (hv : v ∈ others) : ∃ o, s.step d others o = none := by
  cases h with
  | @update k t targets apply resp p rest hp ht hf hq hpe hto =>
    have hany : others.any (fun w => E.lock w = E.lock v) = true :=
      List.any_eq_true.mpr ⟨v, hv, decide_eq_true rfl⟩
    exact ⟨t.clock, by simp [Session.step, hp, ht, hf, hq, hpe, hto, hany]⟩
  | insert o u hp ht hf hq hr htaken hclash hne =>
    have hany : others.any (E.clash u) = true := List.any_eq_true.mpr ⟨v, hv, hclash⟩
    exact ⟨o, by simp [Session.step, hp, ht, hf, hq, hr, htaken, hany]⟩

/-! ## What a session has written -/

/-- The statement can write the version. -/
def Engine.CanWrite (E : Engine) (q : E.S) (v : E.W) : Prop :=
  ∃ snap cur clock o, (E.sem q).Writes snap cur clock o v

/-- Every version was written by a statement of the open transaction, or by the one it is at. -/
structure Session.Source (s : Session E) : Prop where
  written : ∀ v ∈ s.writes, (∃ q r, (⟨.sql q, .ok r⟩ : Event E.Cmd E.Resp) ∈ E.current s.trace ∧ E.CanWrite q v) ∨
    ∃ q k p, s.prog = .exec (.sql q) k ∧ s.pending = some p ∧ v ∈ p.done ∧ E.CanWrite q v
  pending : ∀ p, s.pending = some p → ∃ q k targets apply resp, s.prog = .exec (.sql q) k ∧
    E.sem q = .update targets apply resp ∧ (∀ key ∈ p.todo, key ∈ targets p.snap) ∧
    ∀ v ∈ p.done, E.lock v ∈ targets p.snap

section

variable {d : E.D} {others : List E.W} {o : E.O} {s s' : Session E} {d' : Option E.D}

theorem Session.source_of_nil (hw : s.writes = []) (hp : s.pending = none) : s.Source where
  written v hv := by
    rw [hw] at hv
    exact absurd hv List.not_mem_nil
  pending p hp' := by
    rw [hp] at hp'
    cases hp'

/-- A command that writes nothing is answered. -/
theorem Session.Source.answered (h : s.Source) (hpe : s.pending = none) (hwr : s'.writes = s.writes)
    (hcur : E.current s.trace ⊆ E.current s'.trace) (hp : s'.pending = none) : s'.Source where
  written v hv := by
    rw [hwr] at hv
    rcases h.written v hv with ⟨q, r, hev, hq⟩ | ⟨q, k, p, _, hpe', _⟩
    · exact Or.inl ⟨q, r, hcur hev, hq⟩
    · rw [hpe] at hpe'
      cases hpe'
  pending p hp' := by
    rw [hp] at hp'
    cases hp'

theorem Session.Source.not_pending (h : s.Source) {c : E.Cmd} {k : E.Resp c → Prog E.Cmd E.Resp E.A}
    (hp : s.prog = .exec c k) (hc : ∀ q targets apply resp, c = .sql q → E.sem q ≠ .update targets apply resp) :
    s.pending = none := by
  cases hpe : s.pending with
  | none => rfl
  | some p =>
    obtain ⟨q, k', targets, apply, resp, hp', hq, _⟩ := h.pending p hpe
    rw [hp] at hp'
    cases hp'
    exact absurd hq (hc q targets apply resp rfl)

section

variable {q : E.S} {k : E.Resp (.sql q) → Prog E.Cmd E.Resp E.A} {t : Txn E}

/-- An inserted row was written by the statement that is answered. -/
theorem Session.Source.insert {row : E.D → E.O → E.O → Except E.ε E.W} {resp : E.W → E.RS q} {v : E.W}
    (h : s.Source) (hp : s.prog = .exec (.sql q) k) (ht : s.txn = some t)
    (hq : E.sem q = .insert row resp) (hr : row (s.view d) t.clock o = .ok v) :
    ((s.wrote v).answered (.sql q) (.ok (resp v)) k).Source := by
  have hpe := h.not_pending hp fun _ _ _ _ hc hup => by
    cases hc
    cases hq.symm.trans hup
  have hwr : ((s.wrote v).answered (.sql q) (.ok (resp v)) k).writes = s.writes ++ [v] :=
    Session.writes_wrote ht
  refine ⟨fun u hu => ?_, fun p hp' => by cases hp'⟩
  rw [hwr] at hu
  refine Or.inl ?_
  simp only [Session.answered, Engine.current_sql]
  rcases List.mem_append.mp hu with hu | hu
  · rcases h.written u hu with ⟨q', r, hev, hq'⟩ | ⟨_, _, p, _, hpe', _⟩
    · exact ⟨q', r, List.mem_append_left _ hev, hq'⟩
    · rw [hpe] at hpe'
      cases hpe'
  · obtain rfl := List.mem_singleton.mp hu
    refine ⟨q, resp u, List.mem_append_right _ (List.mem_singleton_self _), s.view d, s.view d, t.clock, o, ?_⟩
    rw [hq, Sem.writes_insert]
    exact hr

variable {targets : E.D → List E.K} {apply : E.D → E.D → E.O → E.K → Option (Except E.ε E.W)}
  {resp : List E.W → E.RS q} {p : Pending E} {key : E.K} {rest : List E.K}

/-- An update that begins has written nothing yet. -/
theorem Session.Source.snapshot (h : s.Source) (hp : s.prog = .exec (.sql q) k)
    (hq : E.sem q = .update targets apply resp) (hpe : s.pending = none) (snap : E.D) :
    ({ s with pending := some ⟨snap, targets snap, []⟩ } : Session E).Source := by
  refine ⟨fun v hv => ?_, fun p hp' => ?_⟩
  · rcases h.written v hv with hev | ⟨_, _, p, _, hpe', _⟩
    · exact Or.inl hev
    · rw [hpe] at hpe'
      cases hpe'
  · cases hp'
    refine ⟨q, k, targets, apply, resp, hp, hq, fun key hkey => hkey, fun v hv => ?_⟩
    exact absurd hv List.not_mem_nil

/-- Nor has it when it passes a row over. -/
theorem Session.Source.skip (h : s.Source) (hp : s.prog = .exec (.sql q) k)
    (hq : E.sem q = .update targets apply resp) (hpe : s.pending = some p) (hto : p.todo = key :: rest) :
    ({ s with pending := some { p with todo := rest } } : Session E).Source := by
  obtain ⟨q', k', targets', apply', resp', hp', hq', htodo, hdone⟩ := h.pending p hpe
  cases hp.symm.trans hp'
  cases hq.symm.trans hq'
  refine ⟨fun v hv => ?_, fun p' hp' => ?_⟩
  · rcases h.written v hv with hev | ⟨q', k', p', hp', hpe', hv', hq'⟩
    · exact Or.inl hev
    · cases hpe.symm.trans hpe'
      exact Or.inr ⟨q', k', _, hp', rfl, hv', hq'⟩
  · cases hp'
    refine ⟨q, k, targets, apply, resp, hp, hq, fun key hkey => htodo key ?_, hdone⟩
    rw [hto]
    exact List.mem_cons_of_mem _ hkey

/-- What it writes is one of the rows it is for. -/
theorem Session.Source.write {v : E.W} (h : s.Source) (hp : s.prog = .exec (.sql q) k)
    (ht : s.txn = some t) (hq : E.sem q = .update targets apply resp) (hpe : s.pending = some p)
    (hto : p.todo = key :: rest) (ha : apply p.snap (s.view d) t.clock key = some (.ok v)) :
    ({ s.wrote v with pending := some { p with todo := rest, done := p.done ++ [v] } } :
      Session E).Source := by
  obtain ⟨q', k', targets', apply', resp', hp', hq', htodo, hdone⟩ := h.pending p hpe
  cases hp.symm.trans hp'
  cases hq.symm.trans hq'
  have hwr : (s.wrote v).writes = s.writes ++ [v] := Session.writes_wrote ht
  have hcan : E.CanWrite q v := by
    refine ⟨p.snap, s.view d, t.clock, t.clock, ?_⟩
    rw [hq, Sem.writes_update]
    exact ⟨key, ha⟩
  refine ⟨fun u hu => ?_, fun p' hp' => ?_⟩
  · have hu : u ∈ s.writes ++ [v] := hwr ▸ hu
    rcases List.mem_append.mp hu with hu | hu
    · rcases h.written u hu with hev | ⟨q', k', p', hp', hpe', hu', hq'⟩
      · exact Or.inl hev
      · cases hpe.symm.trans hpe'
        exact Or.inr ⟨q', k', _, hp', rfl, List.mem_append_left _ hu', hq'⟩
    · obtain rfl := List.mem_singleton.mp hu
      exact Or.inr ⟨q, k, _, hp, rfl, List.mem_append_right _ (List.mem_singleton_self _), hcan⟩
  · cases hp'
    refine ⟨q, k, targets, apply, resp, hp, hq, fun key hkey => htodo key ?_, fun u hu => ?_⟩
    · rw [hto]
      exact List.mem_cons_of_mem _ hkey
    · rcases List.mem_append.mp hu with hu | hu
      · exact hdone u hu
      · obtain rfl := List.mem_singleton.mp hu
        rw [E.apply_lock q targets apply resp hq _ _ _ _ _ ha]
        exact htodo key (hto ▸ List.mem_cons_self)

/-- When it is answered, its event stands for all it has written. -/
theorem Session.Source.finish (h : s.Source) (hp : s.prog = .exec (.sql q) k) (r : E.RS q) :
    (s.answered (.sql q) (.ok r) k).Source := by
  refine ⟨fun v hv => Or.inl ?_, fun p' hp' => by cases hp'⟩
  simp only [Session.answered, Engine.current_sql]
  rcases h.written v hv with ⟨q', r, hev, hq'⟩ | ⟨q', k', p', hp', hpe', hv', hq'⟩
  · exact ⟨q', r, List.mem_append_left _ hev, hq'⟩
  · cases hp.symm.trans hp'
    exact ⟨q, _, List.mem_append_right _ (List.mem_singleton_self _), hq'⟩

end

theorem Move.source (hm : Move d others o s s' d') (h : s.Source) (hu : s.UndoneOk) : s'.Source := by
  cases hm with
  | begin hp ht => exact Session.source_of_nil rfl rfl
  | commit hp ht hf => exact Session.source_of_nil rfl rfl
  | abandon hp ht hf => exact Session.source_of_nil rfl rfl
  | rollback hp => exact Session.source_of_nil rfl rfl
  | ext hp =>
    have hpe := h.not_pending hp fun _ _ _ _ hc => by cases hc
    refine h.answered hpe rfl ?_ rfl
    simp only [Session.answered, Engine.current_ext]
    exact List.Subset.refl _
  | @barred q k t hp ht hf => exact Session.source_of_nil (hu t ht hf) rfl
  | @query q k t read r hp ht hf hq hr =>
    have hpe := h.not_pending hp fun _ _ _ _ hc hup => by
      cases hc
      cases hq.symm.trans hup
    refine h.answered hpe rfl ?_ rfl
    simp only [Session.answered, Engine.current_sql]
    exact List.subset_append_left _ _
  | refused hp ht hf hr => exact Session.source_of_nil Session.writes_undone rfl
  | insert hp ht hf hq hr hu hc => exact h.insert hp ht hq hr
  | snapshot hp ht hf hq hpe => exact h.snapshot hp hq hpe _
  | skip hp ht hf hq hpe hto hl ha => exact h.skip hp hq hpe hto
  | write hp ht hf hq hpe hto hl ha => exact h.write hp ht hq hpe hto ha
  | finish hp ht hf hq hpe hto => exact h.finish hp _

theorem Broken.source (hb : Broken s s') : s'.Source := by
  refine Session.source_of_nil hb.writes ?_
  cases hb <;> rfl

end

/-- **In every run what a session has written comes from its statements.** -/
theorem Reachable.source {i : Nat} {s : Session E} (h : Reachable C (.init d₀) w)
    (hs : w.sessions[i]? = some s) : s.Source := by
  refine h.session_rule (P := fun _ _ _ s => s.Source) ?_ ?_ ?_ ?_ i s hs
  · intro w c _ _
    exact Session.source_of_nil rfl rfl
  · intro w i o s s' d' hw _ hall hs hm
    exact hm.source (hall i s hs) (hw.undoneOk hs)
  · intro w i s s' _ _ _ hb
    exact hb.source
  · intro w i j o s s' t d' _ _ hall _ _ ht _
    exact hall j t ht

/-! ## What an update has read -/

/-- What the snapshot of the running update shows has only moved up since. -/
theorem Engine.Order.Respected.snapshot {O : E.Order} (hO : O.Respected C d₀)
    (h : Reachable C (.init d₀) w) {i : Nat} {s : Session E} (hs : w.sessions[i]? = some s)
    {p : Pending E} (hp : s.pending = some p) (k : E.K) :
    O.le k (E.get p.snap k) (E.get (s.view w.db) k) := by
  refine h.session_rule (P := fun d _ _ (s : Session E) => ∀ p, s.pending = some p →
    ∀ k, O.le k (E.get p.snap k) (E.get (s.view d) k)) ?_ ?_ ?_ ?_ i s hs p hp k
  · intro w c _ _ p hp
    cases hp
  · intro w i o s s' d' hw hc hall hs hm p' hp' k
    have ih := hall i s hs
    cases hm with
    | snapshot hp ht hf hq hpe =>
      cases hp'
      exact O.refl k _
    | skip hp ht hf hq hpe hto hl ha =>
      cases hp'
      exact ih _ hpe k
    | @write q j t targets apply resp p key rest v hp ht hf hq hpe hto hl ha =>
      cases hp'
      have hv : Writing w.db (w.others i) s q t v := .of_update hp ht hf hq hl ha
      have hview : E.get ((s.wrote v).view w.db) k =
          if E.lock v = k then some v else E.get (s.view w.db) k := by
        rw [Session.view_of_wrote (Session.writes_wrote ht), E.get_put]
      show O.le k (E.get p.snap k) (E.get ((s.wrote v).view w.db) k)
      rw [hview]
      split
      · rename_i hk
        subst hk
        exact O.trans _ _ _ _ (ih _ hpe _) (hO hw hc hs hv)
      · exact ih _ hpe k
    | _ => cases hp'
  · intro w i s s' _ _ _ hb p hp
    rw [hb.pending] at hp
    cases hp
  · intro w i j o s s' t d' hw _ hall hij hs ht hm p hp k
    have ih := hall j t ht p hp k
    rw [hm.publishes, Session.get_view_publish]
    split
    · exact ih
    · rename_i hk
      rw [Session.get_view_of_free hk] at ih
      exact O.trans _ _ _ _ ih (hO.relates hw hs k)

end ReadCommitted
