import ExpenseSaas.ReadCommitted.History

/-!
# Version stamps

Many applications stamp each row version with the start time of the transaction
that wrote it, and compare stamps instead of rows. Start times are not in commit
order, so stamps are not monotone. They are still unique: if no two transactions
begin at the same time, two committed versions of a row with the same stamp are
the same version (`Reachable.version_unique`), and a version that was replaced
never comes back (`Reachable.replaced_once`).
-/

namespace ReadCommitted

variable {E : Engine} {τ : Type} (stamp : E.W → Option τ) (now : E.O → τ)

/-- A transaction that began now would have a time of its own. -/
def FreshNow (d₀ : E.D) (w : World E) (o : E.O) : Prop :=
  (∀ c ∈ w.begun, now c ≠ now o) ∧ ∀ k v, E.get d₀ k = some v → stamp v ≠ some (now o)

/-- If the action opens a transaction, then at a time of its own. -/
def BeginsFresh (d₀ : E.D) (w : World E) : Action E → Prop
  | .step i o => ∀ s k, w.sessions[i]? = some s → s.prog = .exec .begin k →
      FreshNow stamp now d₀ w o
  | _ => True

/-- Whatever is written is stamped with the start of the transaction that writes it. -/
def StampsWrites (C : World E → Action E → Prop) (d₀ : E.D) : Prop :=
  ∀ {w : World E} {i : Nat} {s : Session E} {q : E.S} {t : Txn E} {v : E.W},
    Reachable C (.init d₀) w → w.sessions[i]? = some s → Writing w.db (w.others i) s q t v →
    ∀ x, stamp v = some x → x = now t.clock

/-- What is known of stamps at one moment of a run. -/
structure Stamped (d₀ : E.D) (w : World E) : Prop where
  /-- Stamps are old, or times at which a transaction began. -/
  seen : ∀ d ∈ history d₀ w.log, ∀ k v x, E.get d k = some v → stamp v = some x →
    (∃ k₀ v₀, E.get d₀ k₀ = some v₀ ∧ stamp v₀ = some x) ∨ ∃ c ∈ w.begun, now c = x
  begun : ∀ (i : Nat) (s : Session E) (t : Txn E), w.sessions[i]? = some s → s.txn = some t →
    t.clock ∈ w.begun
  /-- The time of an open transaction is not the stamp of anything committed. -/
  unused : ∀ (i : Nat) (s : Session E) (t : Txn E), w.sessions[i]? = some s → s.txn = some t →
    ∀ d ∈ history d₀ w.log, ∀ k v, E.get d k = some v → stamp v ≠ some (now t.clock)
  own : ∀ (i : Nat) (s : Session E) (t : Txn E), w.sessions[i]? = some s → s.txn = some t →
    ∀ v ∈ s.writes, ∀ x, stamp v = some x → x = now t.clock
  apart : ∀ (i j : Nat) (s s' : Session E) (t t' : Txn E), i ≠ j → w.sessions[i]? = some s →
    w.sessions[j]? = some s' → s.txn = some t → s'.txn = some t' → now t.clock ≠ now t'.clock
  unique : ∀ d ∈ history d₀ w.log, ∀ d' ∈ history d₀ w.log, ∀ k v v' x, E.get d k = some v →
    E.get d' k = some v' → stamp v = some x → stamp v' = some x → v = v'

variable {stamp now} {C : World E → Action E → Prop} {d₀ : E.D} {w w' : World E}

theorem stamped_init : Stamped stamp now d₀ (.init d₀ : World E) := by
  have hhist : ∀ d ∈ history d₀ (World.init d₀ : World E).log, d = d₀ := by
    intro d hd
    simpa [history, World.init] using hd
  constructor
  · intro d hd k v x hv hx
    obtain rfl := hhist d hd
    exact Or.inl ⟨k, v, hv, hx⟩
  · intro i s t hs
    exact absurd hs (by simp [World.init])
  · intro i s t hs
    exact absurd hs (by simp [World.init])
  · intro i s t hs
    exact absurd hs (by simp [World.init])
  · intro i j s s' t t' _ hs
    exact absurd hs (by simp [World.init])
  · intro d hd d' hd' k v v' x hv hv' _ _
    obtain rfl := hhist d hd
    obtain rfl := hhist d' hd'
    rw [hv] at hv'
    exact Option.some.inj hv'

/-- Nothing is committed and no transaction is opened: the sessions only go on. -/
theorem Stamped.sessions (h : Stamped stamp now d₀ w) {l : List (Session E)}
    (hl : ∀ (j : Nat) (s' : Session E) (t' : Txn E), l[j]? = some s' → s'.txn = some t' →
      ∃ s t, w.sessions[j]? = some s ∧ s.txn = some t ∧ t'.clock = t.clock ∧
        ∀ v ∈ s'.writes, v ∈ s.writes ∨ ∀ x, stamp v = some x → x = now t.clock) :
    Stamped stamp now d₀ { w with sessions := l } where
  seen := h.seen
  begun j s' t' hs' ht' := by
    obtain ⟨s, t, hs, ht, hcl, _⟩ := hl j s' t' hs' ht'
    rw [hcl]
    exact h.begun j s t hs ht
  unused j s' t' hs' ht' := by
    obtain ⟨s, t, hs, ht, hcl, _⟩ := hl j s' t' hs' ht'
    rw [hcl]
    exact h.unused j s t hs ht
  own j s' t' hs' ht' v hv x hx := by
    obtain ⟨s, t, hs, ht, hcl, hw⟩ := hl j s' t' hs' ht'
    rw [hcl]
    rcases hw v hv with hv | hv
    · exact h.own j s t hs ht v hv x hx
    · exact hv x hx
  apart i j s s' t t' hij hs hs' ht ht' := by
    obtain ⟨s₁, t₁, hs₁, ht₁, hcl₁, _⟩ := hl i s t hs ht
    obtain ⟨s₂, t₂, hs₂, ht₂, hcl₂, _⟩ := hl j s' t' hs' ht'
    rw [hcl₁, hcl₂]
    exact h.apart i j s₁ s₂ t₁ t₂ hij hs₁ hs₂ ht₁ ht₂
  unique := h.unique

/-- A transaction is opened at a fresh time. -/
theorem Stamped.opened (h : Stamped stamp now d₀ w) {i : Nat} {o : E.O} {s s' : Session E}
    (hs : w.sessions[i]? = some s) (hfresh : FreshNow stamp now d₀ w o)
    (ht' : s'.txn = some ⟨o, [], false⟩) : Stamped stamp now d₀
      { w with sessions := w.sessions.set i s', begun := w.begun ++ [o] } := by
  have hold : ∀ d ∈ history d₀ w.log, ∀ k v, E.get d k = some v → stamp v ≠ some (now o) := by
    intro d hd k v hv hx
    rcases h.seen d hd k v _ hv hx with ⟨k₀, v₀, hv₀, hx₀⟩ | ⟨c, hc, hcx⟩
    · exact hfresh.2 k₀ v₀ hv₀ hx₀
    · exact hfresh.1 c hc hcx
  constructor
  · intro d hd k v x hv hx
    refine (h.seen d hd k v x hv hx).imp_right ?_
    rintro ⟨c, hc, hcx⟩
    exact ⟨c, List.mem_append_left _ hc, hcx⟩
  · intro j t u ht hu
    rcases List.getElem?_of_set ht with ⟨rfl, rfl⟩ | ⟨_, ht⟩
    · rw [ht'] at hu
      cases hu
      exact List.mem_append_right _ (List.mem_singleton_self _)
    · exact List.mem_append_left _ (h.begun j t u ht hu)
  · intro j t u ht hu
    rcases List.getElem?_of_set ht with ⟨rfl, rfl⟩ | ⟨_, ht⟩
    · rw [ht'] at hu
      cases hu
      exact hold
    · exact h.unused j t u ht hu
  · intro j t u ht hu v hv
    rcases List.getElem?_of_set ht with ⟨rfl, rfl⟩ | ⟨_, ht⟩
    · rw [Session.writes_of_txn ht'] at hv
      exact absurd hv (by simp)
    · exact h.own j t u ht hu v hv
  · intro a b x y t u hab hx hy ht hu
    rcases List.getElem?_of_set hx with ⟨rfl, rfl⟩ | ⟨_, hx₀⟩ <;>
      rcases List.getElem?_of_set hy with ⟨rfl, rfl⟩ | ⟨_, hy₀⟩
    · exact absurd rfl hab
    · rw [ht'] at ht
      cases ht
      exact (hfresh.1 _ (h.begun b y u hy₀ hu)).symm
    · rw [ht'] at hu
      cases hu
      exact hfresh.1 _ (h.begun a x t hx₀ ht)
    · exact h.apart a b x y t u hab hx₀ hy₀ ht hu
  · exact h.unique

/-- A transaction is committed: what it wrote bears a stamp nothing has had. -/
theorem Stamped.committed (h : Stamped stamp now d₀ w) (hdb : w.db ∈ history d₀ w.log) {i : Nat}
    {s s' : Session E} {t : Txn E} (hs : w.sessions[i]? = some s) (ht : s.txn = some t)
    (ht' : s'.txn = none) : Stamped stamp now d₀ { w with
      db := s.view w.db
      sessions := w.sessions.set i s'
      log := w.log ++ [⟨i, w.db, s.view w.db⟩] } := by
  -- A row of the new state is an old one, or bears the stamp of this transaction.
  have hnew : ∀ k v, E.get (s.view w.db) k = some v → E.get w.db k = some v ∨
      ∀ x, stamp v = some x → x = now t.clock := by
    intro k v hv
    by_cases hk : s.Holds k
    · obtain ⟨u, hu, _, hget⟩ := Session.get_view_of_holds hk
      obtain rfl := Option.some.inj ((hget _).symm.trans hv)
      exact Or.inr fun x hx => h.own i s t hs ht u hu x hx
    · rw [Session.get_view_of_free hk] at hv
      exact Or.inl hv
  have hhist : ∀ d ∈ history d₀ (w.log ++ [⟨i, w.db, s.view w.db⟩]), d ∈ history d₀ w.log ∨
      d = s.view w.db := by
    intro d hd
    rw [history_append, List.mem_append, List.mem_singleton] at hd
    exact hd
  constructor
  · intro d hd k v x hv hx
    rcases hhist d hd with hd | rfl
    · exact h.seen d hd k v x hv hx
    · rcases hnew k v hv with hv | hv
      · exact h.seen _ hdb k v x hv hx
      · exact Or.inr ⟨t.clock, h.begun i s t hs ht, (hv x hx).symm⟩
  · intro j y u hy hu
    rcases List.getElem?_of_set hy with ⟨rfl, rfl⟩ | ⟨_, hy⟩
    · rw [ht'] at hu
      cases hu
    · exact h.begun j y u hy hu
  · intro j y u hy hu d hd k v hv hx
    rcases List.getElem?_of_set hy with ⟨rfl, rfl⟩ | ⟨hj, hy⟩
    · rw [ht'] at hu
      cases hu
    · rcases hhist d hd with hd | rfl
      · exact h.unused j y u hy hu d hd k v hv hx
      · rcases hnew k v hv with hv | hv
        · exact h.unused j y u hy hu _ hdb k v hv hx
        · exact h.apart i j s y t u (Ne.symm hj) hs hy ht hu (hv _ hx).symm
  · intro j y u hy hu
    rcases List.getElem?_of_set hy with ⟨rfl, rfl⟩ | ⟨_, hy⟩
    · rw [ht'] at hu
      cases hu
    · exact h.own j y u hy hu
  · intro a b x y u u' hab hx hy hu hu'
    rcases List.getElem?_of_set hx with ⟨rfl, rfl⟩ | ⟨_, hx⟩
    · rw [ht'] at hu
      cases hu
    · rcases List.getElem?_of_set hy with ⟨rfl, rfl⟩ | ⟨_, hy⟩
      · rw [ht'] at hu'
        cases hu'
      · exact h.apart a b x y u u' hab hx hy hu hu'
  · have hcase : ∀ d ∈ history d₀ w.log, ∀ k v v' x, E.get d k = some v →
        E.get (s.view w.db) k = some v' → stamp v = some x → stamp v' = some x → v = v' := by
      intro d hd k v v' x hv hv' hx hx'
      rcases hnew k v' hv' with hv' | hv'
      · exact h.unique d hd _ hdb k v v' x hv hv' hx hx'
      · rw [hv' x hx'] at hx
        exact absurd hx (h.unused i s t hs ht d hd k v hv)
    intro d hd d' hd' k v v' x hv hv' hx hx'
    rcases hhist d hd with hd | rfl <;> rcases hhist d' hd' with hd' | rfl
    · exact h.unique d hd d' hd' k v v' x hv hv' hx hx'
    · exact hcase d hd k v v' x hv hv' hx hx'
    · exact (hcase d' hd' k v' v x hv' hv hx' hx).symm
    · rw [hv] at hv'
      exact Option.some.inj hv'

theorem Reachable.stamped (hC : ∀ w a, C w a → BeginsFresh stamp now d₀ w a)
    (hwrite : StampsWrites stamp now C d₀) (h : Reachable C (.init d₀) w) :
    Stamped stamp now d₀ w := by
  refine h.invariant stamped_init (fun w w' a hw ih hc hstep => ?_)
  cases World.step_cases hstep with
  | start c =>
    refine ih.sessions (fun j s' t' hs' ht' => ?_)
    rcases List.getElem?_of_concat hs' with ⟨_, rfl⟩ | hs'
    · cases ht'
    · exact ⟨s', t', hs', ht', rfl, fun v hv => Or.inl hv⟩
  -- a failed session has written nothing and keeps its clock
  | @broke a i s s' _ hs hb =>
    refine ih.sessions (fun j y u hy hu => ?_)
    rcases List.getElem?_of_set hy with ⟨rfl, rfl⟩ | ⟨_, hy⟩
    · rcases hb.txn with hnone | ⟨t, t', ht, ht', hcl, _⟩
      · rw [hnone] at hu
        cases hu
      · rw [ht'] at hu
        cases hu
        exact ⟨s, t, hs, ht, hcl, fun v hv => absurd hv (by simp [hb.writes])⟩
    · exact ⟨y, u, hy, hu, rfl, fun v hv => Or.inl hv⟩
  | @move i o s s' d' hs hm =>
    cases d' with
    | some d' =>
      -- what is committed bears the stamp of the transaction that wrote it
      obtain ⟨rfl, ht', t, k, ht, _⟩ := hm.publish
      have hgo := ih.committed hw.db_mem_history hs ht ht'
      simpa [World.moved, World.opened, ht] using hgo
    | none =>
      -- a move that begins no transaction adds at most the row it writes
      have hmoved : ∀ s₁ : Session E, World.opened s s₁ = [] → (∀ t₁, s₁.txn = some t₁ →
          ∃ t, s.txn = some t ∧ t₁.clock = t.clock) → (∀ v ∈ s₁.writes, v ∈ s'.writes) →
          Stamped stamp now d₀ (w.moved i s s₁ none) := by
        intro s₁ hbegun htxn hwr
        have hgo := ih.sessions (l := w.sessions.set i s₁) (fun j y u hy hu => by
          rcases List.getElem?_of_set hy with ⟨rfl, rfl⟩ | ⟨_, hy⟩
          · obtain ⟨t, ht, hcl⟩ := htxn u hu
            refine ⟨s, t, hs, ht, hcl, fun v hv => ?_⟩
            rcases hm.effect.mem_writes (hwr v hv) with hv | ⟨q, t', hv⟩
            · exact Or.inl hv
            · have ht' := hv.txn
              rw [ht] at ht'
              cases ht'
              exact Or.inr (hwrite hw hs hv)
          · exact ⟨y, u, hy, hu, rfl, fun v hv => Or.inl hv⟩)
        simpa [World.moved, hbegun] using hgo
      cases hm.txn with
      | opened hp ht ht' =>
        -- `BEGIN` reads the clock, which is fresh
        have hgo := ih.opened hs (hC _ _ hc s _ hs hp) ht'
        simpa [World.moved, World.opened, ht, ht'] using hgo
      | closed ht' =>
        refine hmoved s' (by simp [World.opened, ht']) (fun t₁ ht₁ => ?_) (fun v hv => hv)
        rw [ht'] at ht₁
        cases ht₁
      | @same t t' ht ht' hcl _ =>
        refine hmoved s' (by simp [World.opened, ht, ht']) (fun t₁ ht₁ => ?_) (fun v hv => hv)
        rw [ht'] at ht₁
        cases ht₁
        exact ⟨t, ht, hcl⟩

/-- **Two committed versions of a row with one stamp are one version.** -/
theorem Reachable.version_unique (hC : ∀ w a, C w a → BeginsFresh stamp now d₀ w a)
    (hwrite : StampsWrites stamp now C d₀) (h : Reachable C (.init d₀) w) {d d' : E.D}
    (hd : d ∈ history d₀ w.log) (hd' : d' ∈ history d₀ w.log) {k : E.K} {v v' : E.W} {x : τ}
    (hv : E.get d k = some v) (hv' : E.get d' k = some v') (hx : stamp v = some x)
    (hx' : stamp v' = some x) : v = v' :=
  (h.stamped hC hwrite).unique d hd d' hd' k v v' x hv hv' hx hx'

/--
What an open transaction sees under a stamp that was ever committed is that
committed version: it is not one of the transaction's own.
-/
theorem Reachable.version_seen (hC : ∀ w a, C w a → BeginsFresh stamp now d₀ w a)
    (hwrite : StampsWrites stamp now C d₀) (h : Reachable C (.init d₀) w) {i : Nat}
    {s : Session E} {t : Txn E} (hs : w.sessions[i]? = some s) (ht : s.txn = some t) {d : E.D}
    (hd : d ∈ history d₀ w.log) {k : E.K} {v v' : E.W} {x : τ} (hv : E.get d k = some v)
    (hv' : E.get (s.view w.db) k = some v') (hx : stamp v = some x) (hx' : stamp v' = some x) :
    ¬ s.Holds k ∧ v' = v := by
  have hst := h.stamped hC hwrite
  have hfree : ¬ s.Holds k := by
    intro hk
    obtain ⟨u, hu, _, hget⟩ := Session.get_view_of_holds hk
    obtain rfl := Option.some.inj ((hget _).symm.trans hv')
    have hxt := hst.own i s t hs ht _ hu x hx'
    exact hst.unused i s t hs ht d hd k v hv (hxt ▸ hx)
  rw [Session.get_view_of_free hfree] at hv'
  exact ⟨hfree, hst.unique _ h.db_mem_history d hd k v' v x hv' hv hx' hx⟩

/-- The commit replaces version `v` of row `k`. -/
def Entry.Replaces (e : Entry E) (k : E.K) (v : E.W) : Prop :=
  E.get e.pre k = some v ∧ E.get e.post k ≠ some v

/-- A stamped version that was replaced is not the current one. -/
theorem Reachable.gone (hC : ∀ w a, C w a → BeginsFresh stamp now d₀ w a)
    (hwrite : StampsWrites stamp now C d₀) (h : Reachable C (.init d₀) w) :
    ∀ e ∈ w.log, ∀ k v x, stamp v = some x → e.Replaces k v → E.get w.db k ≠ some v := by
  refine h.invariant (I := fun w => ∀ e ∈ w.log, ∀ k v x, stamp v = some x → e.Replaces k v →
    E.get w.db k ≠ some v) (by simp [World.init]) (fun w w' a hw ih hc hstep => ?_)
  cases World.step_cases hstep with
  | start c => exact ih
  | broke ha hs hb => exact ih
  | @move i o s s' d' hs hm =>
    cases d' with
    | none => simpa [World.moved] using ih
    | some d' =>
      obtain ⟨rfl, _, t, _, ht, _⟩ := hm.publish
      simp only [World.moved, Option.map_some, Option.toList_some, Option.getD_some]
      intro e he k v x hx hrep
      rcases List.mem_append.mp he with he | he
      · by_cases hk : s.Holds k
        · -- The new version bears the time of the transaction, which `v` does not.
          have hst := hw.stamped hC hwrite
          obtain ⟨u, hu, _, hget⟩ := Session.get_view_of_holds hk
          rw [hget]
          intro huv
          obtain rfl := Option.some.inj huv
          have hxt := hst.own i s t hs ht u hu x hx
          exact hst.unused i s t hs ht e.pre (hw.pre_mem_history e he) k u hrep.1 (hxt ▸ hx)
        · rw [Session.get_view_of_free hk]
          exact ih e he k v x hx hrep
      · rw [List.mem_singleton.mp he] at hrep
        exact hrep.2

/-- **No commit finds a stamped version that an earlier one replaced.** -/
theorem Reachable.replaced_once (hC : ∀ w a, C w a → BeginsFresh stamp now d₀ w a)
    (hwrite : StampsWrites stamp now C d₀) (h : Reachable C (.init d₀) w) :
    w.log.Pairwise fun e f => ∀ k v x, stamp v = some x → e.Replaces k v →
      E.get f.pre k ≠ some v := by
  refine h.invariant (I := fun w => w.log.Pairwise fun e f => ∀ k v x, stamp v = some x →
    e.Replaces k v → E.get f.pre k ≠ some v) (by simp [World.init]) (fun w w' a hw ih _ hstep => ?_)
  cases World.step_cases hstep with
  | start c => exact ih
  | broke ha hs hb => exact ih
  | @move i o s s' d' hs hm =>
    cases d' with
    | none => simpa [World.moved] using ih
    | some d' =>
      simp only [World.moved, Option.map_some, Option.toList_some]
      refine List.pairwise_append.mpr ⟨ih, List.pairwise_singleton _ _, fun e he f hf => ?_⟩
      rw [List.mem_singleton.mp hf]
      exact hw.gone hC hwrite e he

end ReadCommitted
