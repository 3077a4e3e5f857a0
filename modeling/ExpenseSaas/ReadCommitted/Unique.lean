import ExpenseSaas.ReadCommitted.History

/-!
# Unique indexes

A unique index is checked when a row is added: against what the session sees, and
against what others have written and may still commit. Nothing is checked when a
row is updated, so updates have to leave the indexed value alone.

`Shows` collects the versions that are current somewhere, committed or not. An
index is unique among all of them at any moment (`Reachable.unique`), and so in
every committed state.
-/

namespace ReadCommitted

variable {E : Engine} {X : Type} {C : World E → Action E → Prop} {d₀ : E.D} {w w' : World E}

/-- `v` is the current version of row `k`, for everybody or for the session that wrote it. -/
def World.Shows (w : World E) (k : E.K) (v : E.W) : Prop :=
  E.get w.db k = some v ∨ ∃ (i : Nat) (s : Session E), w.sessions[i]? = some s ∧ s.Holds k ∧
    E.get (s.view w.db) k = some v

/-- What a session sees is committed, or its own. -/
theorem World.shows_of_view {i : Nat} {s : Session E} (hs : w.sessions[i]? = some s) {k : E.K}
    {v : E.W} (h : E.get (s.view w.db) k = some v) : w.Shows k v := by
  by_cases hk : s.Holds k
  · exact Or.inr ⟨i, s, hs, hk, h⟩
  · exact Or.inl (Session.get_view_of_free hk ▸ h)

/-- What a move leaves committed was current before. -/
theorem World.shows_of_moved {i : Nat} {o : E.O} {s s' : Session E} {d' : Option E.D}
    (hs : w.sessions[i]? = some s) (hm : Move w.db (w.others i) o s s' d') {k : E.K} {v : E.W}
    (h : E.get (w.moved i s s' d').db k = some v) : w.Shows k v := by
  cases d' with
  | none => exact Or.inl h
  | some d =>
    have h : E.get d k = some v := h
    rw [hm.publishes] at h
    exact World.shows_of_view hs h

/-- **A version is current because it was, or it is the one just written.** -/
theorem World.shows_of_step {a : Action E} (hstep : w.step a = some w') :
    (∀ k v, w'.Shows k v → w.Shows k v) ∨ ∃ i s q t x, w.sessions[i]? = some s ∧
      Writing w.db (w.others i) s q t x ∧
        ∀ k v, w'.Shows k v → w.Shows k v ∨ (k = E.lock x ∧ v = x) := by
  cases World.step_cases hstep with
  | start c =>
    refine Or.inl ?_
    rintro k v (h | ⟨i, s, hs, hheld, hv⟩)
    · exact Or.inl h
    · rcases List.getElem?_of_concat hs with ⟨_, rfl⟩ | hs'
      · obtain ⟨u, hu, _⟩ := hheld
        exact absurd hu (by simp [Session.new, Session.writes])
      · exact Or.inr ⟨i, s, hs', hheld, hv⟩
  | broke ha hs hb =>
    refine Or.inl ?_
    rintro k v (h | ⟨i, s, hs', hheld, hv⟩)
    · exact Or.inl h
    · rcases List.getElem?_of_set hs' with ⟨rfl, rfl⟩ | ⟨_, ht⟩
      · obtain ⟨u, hu, _⟩ := hheld
        exact absurd hu (by simp [hb.writes])
      · exact Or.inr ⟨i, s, ht, hheld, hv⟩
  | @move i o s s' d' hs hm =>
    -- Only the versions of the session that moves can be new.
    have hnew : ∀ k v, (w.moved i s s' d').Shows k v →
        w.Shows k v ∨ (s'.Holds k ∧ E.get (s'.view w.db) k = some v) := by
      rintro k v (h | ⟨j, t, ht, hheld, hv⟩)
      · exact Or.inl (World.shows_of_moved hs hm h)
      · obtain ⟨u, _, _, hget⟩ := Session.get_view_of_holds hheld
        rw [hget] at hv
        cases hv
        rcases List.getElem?_of_set ht with ⟨_, rfl⟩ | ⟨_, ht'⟩
        · exact Or.inr ⟨hheld, hget w.db⟩
        · exact Or.inl (Or.inr ⟨j, t, ht', hheld, hget w.db⟩)
    have hnil : s'.writes = [] → ∀ k v, (w.moved i s s' d').Shows k v → w.Shows k v := by
      intro hwr k v h
      rcases hnew k v h with h | ⟨⟨u, hu, _⟩, _⟩
      · exact h
      · exact absurd hu (by simp [hwr])
    cases hm.effect with
    | quiet hwr =>
      refine Or.inl fun k v h => ?_
      rcases hnew k v h with h | ⟨_, hv⟩
      · exact h
      · exact World.shows_of_view hs (Session.view_congr hwr ▸ hv)
    | undo hwr => exact Or.inl (hnil hwr)
    | publish hp htx hf hwr => exact Or.inl (hnil hwr)
    | @wrote q tx x hw hwr =>
      refine Or.inr ⟨i, s, q, tx, x, hs, hw, fun k v h => ?_⟩
      rcases hnew k v h with h | ⟨_, hv⟩
      · exact Or.inl h
      · rw [Session.view_of_wrote hwr, E.get_put] at hv
        split at hv
        · rename_i hk
          exact Or.inr ⟨hk.symm, (Option.some.inj hv).symm⟩
        · exact Or.inl (World.shows_of_view hs hv)

/-- The value a version has in an index, and what the engine checks of it. -/
structure Engine.Index (E : Engine) (X : Type) where
  value : E.W → Option X
  clash : ∀ v u x, value v = some x → value u = some x → E.clash v u = true
  taken : ∀ d k v u x, E.get d k = some u → value v = some x → value u = some x →
    E.taken d v = true

/-- Unless it adds a row, no write changes the indexed value of a row. -/
def Engine.Index.Stable (U : E.Index X) (C : World E → Action E → Prop) (d₀ : E.D) : Prop :=
  ∀ {w : World E} {i : Nat} {s : Session E} {q : E.S} {t : Txn E} {v : E.W},
    Reachable C (.init d₀) w → w.sessions[i]? = some s → Writing w.db (w.others i) s q t v →
    E.inserts q = false →
      (∀ u, E.get (s.view w.db) (E.lock v) = some u → U.value u = U.value v) ∧
        (U.value v ≠ none → E.get (s.view w.db) (E.lock v) ≠ none)

/-- No two rows have the same value in the index. -/
def Engine.Index.UniqueIn (U : E.Index X) (d : E.D) : Prop := ∀ k k' v v' x, E.get d k = some v →
  E.get d k' = some v' → U.value v = some x → U.value v' = some x → k = k'

section

variable {U : E.Index X}

/-- Rows stay, and so does their value in the index. -/
def Engine.Index.order (U : E.Index X) : E.Order where
  le _ a b := ∀ v, a = some v → ∃ v', b = some v' ∧ U.value v' = U.value v
  refl _ _ v hv := ⟨v, hv, rfl⟩
  trans _ _ _ _ hab hbc v hv := by
    obtain ⟨v', hv', hx⟩ := hab v hv
    obtain ⟨v'', hv'', hx'⟩ := hbc v' hv'
    exact ⟨v'', hv'', hx'.trans hx⟩

theorem Engine.Index.Stable.respected (hU : U.Stable C d₀) : U.order.Respected C d₀ := by
  intro w i o s q t v hw _ hs hv u hu
  by_cases hi : E.inserts q = true
  · exact nomatch (hv.fresh hi).symm.trans hu
  · exact ⟨v, rfl, ((hU hw hs hv (by simpa using hi)).1 u hu).symm⟩

/-- What is written has its value to itself. -/
theorem Engine.Index.Stable.writing (hU : U.Stable C d₀) (h : Reachable C (.init d₀) w)
    (hI : ∀ k k' v v' x, w.Shows k v → w.Shows k' v' → U.value v = some x →
      U.value v' = some x → k = k') {i : Nat} {s : Session E} (hs : w.sessions[i]? = some s)
    {q : E.S} {t : Txn E} {v : E.W} (hv : Writing w.db (w.others i) s q t v) {k : E.K} {u : E.W}
    {x : X} (hu : w.Shows k u) (hx : U.value v = some x) (hx' : U.value u = some x) :
    k = E.lock v := by
  cases hins : E.inserts q with
  | false =>
    obtain ⟨hsame, hthere⟩ := hU h hs hv hins
    obtain ⟨u', hu'⟩ := Option.ne_none_iff_exists'.mp (hthere (by simp [hx]))
    exact hI k _ u u' x hu (World.shows_of_view hs hu') hx' ((hsame u' hu').trans hx)
  | true =>
    -- Nobody shows the value of a row that is being added.
    have hview : ∀ {k u}, E.get (s.view w.db) k = some u → U.value u ≠ some x := by
      intro k u hu hux
      exact nomatch (hv.untaken hins).symm.trans (U.taken _ k v u x hu hx hux)
    rcases hu with hu | ⟨j, t', ht', hheld, hu⟩
    · obtain ⟨u', hu', hsame⟩ :=
        Engine.Order.Respected.relates (Engine.Index.Stable.respected hU) h hs k u hu
      exact absurd (hsame.trans hx') (hview hu')
    · by_cases hij : j = i
      · subst hij
        cases hs.symm.trans ht'
        exact absurd hx' (hview hu)
      · obtain ⟨y, hy, hk, hget⟩ := Session.get_view_of_holds hheld
        cases (hget w.db).symm.trans hu
        have hno := hv.unclashed hins u (World.mem_others.mpr ⟨j, t', hij, ht', hy⟩)
        exact nomatch hno.symm.trans (U.clash v u x hx hx')

/-- **An index is unique among everything that is current anywhere.** -/
theorem Reachable.unique (hU : U.Stable C d₀) (h₀ : U.UniqueIn d₀) (h : Reachable C (.init d₀) w) :
    ∀ k k' v v' x, w.Shows k v → w.Shows k' v' → U.value v = some x → U.value v' = some x →
      k = k' := by
  refine h.invariant (I := fun w => ∀ k k' v v' x, w.Shows k v → w.Shows k' v' →
    U.value v = some x → U.value v' = some x → k = k') ?_ (fun w w' a hw ih _ hstep => ?_)
  · rintro k k' v v' x hv hv' hx hx'
    have hdb : ∀ {k v}, (World.init d₀).Shows k v → E.get d₀ k = some v := by
      rintro k v (hv | ⟨i, s, hs, _⟩)
      · exact hv
      · exact absurd hs (by simp [World.init])
    exact h₀ k k' v v' x (hdb hv) (hdb hv') hx hx'
  · intro k k' v v' x hv hv' hx hx'
    rcases World.shows_of_step hstep with hold | ⟨i, s, q, t, y, hs, hy, hnew⟩
    · exact ih k k' v v' x (hold k v hv) (hold k' v' hv') hx hx'
    · rcases hnew k v hv with hv | ⟨rfl, rfl⟩ <;> rcases hnew k' v' hv' with hv' | ⟨rfl, rfl⟩
      · exact ih k k' v v' x hv hv' hx hx'
      · exact hU.writing hw ih hs hy hv hx' hx
      · exact (hU.writing hw ih hs hy hv' hx hx').symm
      · rfl

/-- An index is unique in what is committed. -/
theorem Reachable.uniqueIn (hU : U.Stable C d₀) (h₀ : U.UniqueIn d₀)
    (h : Reachable C (.init d₀) w) : U.UniqueIn w.db :=
  fun k k' v v' x hv hv' hx hx' => h.unique hU h₀ k k' v v' x (Or.inl hv) (Or.inl hv') hx hx'

end

end ReadCommitted
