import ExpenseSaas.ReadCommitted.Unique

/-!
# Something beside the database

A server also acts on things that no transaction covers: a store of files, a
mail server. `T w a x x'` says what action `a` of world `w` may make of such a
thing, `x`, and `ReachableBeside` are the states that a run reaches together
with what has become of it.

The link between the two is the history of the session that acts: what a session
was answered from outside, it was answered by the action that asked
(`World.ext_of_step`), and histories only grow (`World.trace_grows`).
-/

namespace ReadCommitted

variable {E : Engine} {X : Type} {w w' : World E} {a : Action E}

/-- An answer from outside was there before, or it is the one this move asked for. -/
theorem Move.ext_event {d : E.D} {others : List E.W} {o : E.O} {s s' : Session E}
    {d' : Option E.D} (hm : Move d others o s s' d') {x : E.X} {r : E.Resp (.ext x)}
    (h : (⟨.ext x, r⟩ : Event E.Cmd E.Resp) ∈ s'.trace) :
    (⟨.ext x, r⟩ : Event E.Cmd E.Resp) ∈ s.trace ∨
      ((∃ k, s.prog = .exec (.ext x) k) ∧ r = E.answer o x) := by
  have hsplit : ∀ {c : E.Cmd} {r' : E.Resp c}, (⟨.ext x, r⟩ : Event E.Cmd E.Resp) ∈
      s.trace ++ [⟨c, r'⟩] → (⟨.ext x, r⟩ : Event E.Cmd E.Resp) ∈ s.trace ∨
        (⟨.ext x, r⟩ : Event E.Cmd E.Resp) = ⟨c, r'⟩ := by
    intro c r' h
    rcases List.mem_append.mp h with h | h
    · exact Or.inl h
    · exact Or.inr (List.mem_singleton.mp h)
  cases hm with
  | ext hp =>
    rcases hsplit h with h | h
    · exact Or.inl h
    · cases h
      exact Or.inr ⟨⟨_, hp⟩, rfl⟩
  | snapshot hp ht hf hq hpe => exact Or.inl h
  | skip hp ht hf hq hpe hto hl ha => exact Or.inl h
  | write hp ht hf hq hpe hto hl ha => exact Or.inl h
  | _ =>
    rcases hsplit h with h | h
    · exact Or.inl h
    · cases h

/-- A command that fails is no call to the outside. -/
theorem Broken.ext_event {s s' : Session E} (hb : Broken s s') {x : E.X} {r : E.Resp (.ext x)}
    (h : (⟨.ext x, r⟩ : Event E.Cmd E.Resp) ∈ s'.trace) :
    (⟨.ext x, r⟩ : Event E.Cmd E.Resp) ∈ s.trace := by
  cases hb <;>
  · rcases List.mem_append.mp h with h | h
    · exact h
    · cases List.mem_singleton.mp h

namespace World

/-- **What a session was answered from outside**, it was answered by its own step. -/
theorem ext_of_step (hstep : w.step a = some w') {i : Nat} {s' : Session E}
    (hs' : w'.sessions[i]? = some s') {x : E.X} {r : E.Resp (.ext x)}
    (h : (⟨.ext x, r⟩ : Event E.Cmd E.Resp) ∈ s'.trace) :
    (∃ s, w.sessions[i]? = some s ∧ (⟨.ext x, r⟩ : Event E.Cmd E.Resp) ∈ s.trace) ∨
      ∃ o s k, a = .step i o ∧ w.sessions[i]? = some s ∧ s.prog = .exec (.ext x) k ∧
        r = E.answer o x := by
  cases step_cases hstep with
  | start c =>
    rcases List.getElem?_of_concat hs' with ⟨_, rfl⟩ | hs
    · exact absurd h List.not_mem_nil
    · exact Or.inl ⟨s', hs, h⟩
  | @move j o s t d' hs hm =>
    rcases List.getElem?_of_set hs' with ⟨rfl, rfl⟩ | ⟨_, hs'⟩
    · rcases hm.ext_event h with h | ⟨⟨k, hp⟩, hr⟩
      · exact Or.inl ⟨s, hs, h⟩
      · exact Or.inr ⟨o, s, k, rfl, hs, hp, hr⟩
    · exact Or.inl ⟨s', hs', h⟩
  | @broke _ j s t ha hs hb =>
    rcases List.getElem?_of_set hs' with ⟨rfl, rfl⟩ | ⟨_, hs'⟩
    · exact Or.inl ⟨s, hs, hb.ext_event h⟩
    · exact Or.inl ⟨s', hs', h⟩

/-- Sessions stay, and what they have been answered too. -/
theorem trace_grows (hstep : w.step a = some w') {i : Nat} {s : Session E}
    (hs : w.sessions[i]? = some s) : ∃ s', w'.sessions[i]? = some s' ∧ s.trace <+: s'.trace := by
  have hset : ∀ {j : Nat} {t t' : Session E}, w.sessions[j]? = some t → t.trace <+: t'.trace →
      ∃ s', (w.sessions.set j t')[i]? = some s' ∧ s.trace <+: s'.trace := by
    intro j t t' ht hgrows
    by_cases hij : j = i
    · subst hij
      cases hs.symm.trans ht
      exact ⟨t', List.getElem?_set_self (List.getElem?_eq_some_iff.mp hs).1, hgrows⟩
    · exact ⟨s, by rw [List.getElem?_set_ne hij]; exact hs, List.prefix_refl _⟩
  cases step_cases hstep with
  | start c =>
    have hlt := (List.getElem?_eq_some_iff.mp hs).1
    exact ⟨s, (List.getElem?_append_left hlt).trans hs, List.prefix_refl _⟩
  | move ht hm => exact hset ht hm.told.trace_prefix
  | broke ha ht hb => exact hset ht (Told.trace_prefix (hb.told (d := w.db)))

end World

/-- The states that a run reaches from `w₀`, and what it makes of `x₀` on the way. -/
inductive ReachableBeside (C : World E → Action E → Prop)
    (T : World E → Action E → X → X → Prop) (w₀ : World E) (x₀ : X) : World E → X → Prop where
  | init : ReachableBeside C T w₀ x₀ w₀ x₀
  | tail {w w' : World E} {a : Action E} {x x' : X} : ReachableBeside C T w₀ x₀ w x → C w a →
      w.step a = some w' → T w a x x' → ReachableBeside C T w₀ x₀ w' x'

namespace ReachableBeside

variable {C : World E → Action E → Prop} {T : World E → Action E → X → X → Prop} {w₀ : World E}
  {x₀ x : X}

/-- It is a run of the world. -/
theorem reachable (h : ReachableBeside C T w₀ x₀ w x) : Reachable C w₀ w := by
  induction h with
  | init => exact .init
  | tail _ hc hstep _ ih => exact .tail ih hc hstep

/-- What holds at the start and is kept by every step holds in every state that is reached. -/
theorem invariant {I : World E → X → Prop} (h₀ : I w₀ x₀)
    (hkeep : ∀ w w' a x x', Reachable C w₀ w → I w x → C w a → w.step a = some w' → T w a x x' →
      I w' x') (h : ReachableBeside C T w₀ x₀ w x) : I w x := by
  induction h with
  | init => exact h₀
  | tail hr hc hstep ht ih => exact hkeep _ _ _ _ _ hr.reachable ih hc hstep ht

end ReachableBeside

/-- A schedule, where `f` says what becomes of the other thing. -/
def World.runBeside (c : World E → Action E → Bool) (f : World E → Action E → X → X) (w : World E)
    (x : X) : List (Action E) → Option (World E × X)
  | [] => some (w, x)
  | a :: as => if c w a then (w.step a).bind fun w' => w'.runBeside c f (f w a x) as else none

/-- A schedule that goes through is a run. -/
theorem reachableBeside_of_run {C : World E → Action E → Prop} {T : World E → Action E → X → X → Prop}
    {c : World E → Action E → Bool} {f : World E → Action E → X → X}
    (hc : ∀ w a, c w a = true → C w a) (hf : ∀ w a x, T w a x (f w a x)) {w₀ : World E} {x₀ : X}
    {as : List (Action E)} {r : World E × X} {w : World E} {x : X}
    (h : w.runBeside c f x as = some r) (hw : ReachableBeside C T w₀ x₀ w x) :
    ReachableBeside C T w₀ x₀ r.1 r.2 := by
  induction as generalizing w x with
  | nil =>
    cases h
    exact hw
  | cons a as ih =>
    unfold World.runBeside at h
    split at h
    · rename_i ha
      obtain ⟨w₁, h₁, h₂⟩ := Option.bind_eq_some_iff.mp h
      exact ih h₂ (.tail hw (hc _ _ ha) h₁ (hf _ _ _))
    · cases h

end ReadCommitted
