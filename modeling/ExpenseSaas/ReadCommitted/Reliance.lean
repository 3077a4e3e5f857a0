import ExpenseSaas.ReadCommitted.Runs

/-!
# Contracts that rely on the run

`Engine.contract` relies on nothing but the meaning of the commands. A client may
rely on more: that a row it was told of is still found, that a count is not less
than another. Such a contract is kept in a run as soon as the answers of the run
are as it relies on (`Reachable.relied`).
-/

namespace ReadCommitted

variable {E : Engine} {C : World E → Action E → Prop} {d₀ : E.D} {w : World E}
  {G : E.L → Contract E.Cmd E.Resp} {post : E.L → E.History → E.A → Prop}

/-! ## Where an answer comes from -/

section

variable {d : E.D} {s : Session E} {q : E.S} {r : E.RS q}

theorem Answer.of_query (ha : Answer d s (.sql q) (.ok r)) {read : E.D → E.O → E.O → Except E.ε (E.RS q)}
    (hq : E.sem q = .query read) : ∃ t o, s.txn = some t ∧ read (s.view d) t.clock o = .ok r := by
  cases ha with
  | query ht hq' hr =>
    cases hq.symm.trans hq'
    exact ⟨_, _, ht, hr⟩
  | insert ht hq' hr => cases hq.symm.trans hq'
  | update hq' hpe hto => cases hq.symm.trans hq'

theorem Answer.of_insert (ha : Answer d s (.sql q) (.ok r)) {row : E.D → E.O → E.O → Except E.ε E.W}
    {resp : E.W → E.RS q} (hq : E.sem q = .insert row resp) :
    ∃ t o v, s.txn = some t ∧ row (s.view d) t.clock o = .ok v ∧ r = resp v := by
  cases ha with
  | query ht hq' hr => cases hq.symm.trans hq'
  | insert ht hq' hr =>
    cases hq.symm.trans hq'
    exact ⟨_, _, _, ht, hr, rfl⟩
  | update hq' hpe hto => cases hq.symm.trans hq'

theorem Answer.of_update (ha : Answer d s (.sql q) (.ok r)) {targets : E.D → List E.K}
    {apply : E.D → E.D → E.O → E.K → Option (Except E.ε E.W)} {resp : List E.W → E.RS q}
    (hq : E.sem q = .update targets apply resp) : ∃ p, s.pending = some p ∧ r = resp p.done := by
  cases ha with
  | query ht hq' hr => cases hq.symm.trans hq'
  | insert ht hq' hr => cases hq.symm.trans hq'
  | update hq' hpe hto =>
    cases hq.symm.trans hq'
    exact ⟨_, hpe, rfl⟩

end

/-! ## Contracts of a run -/

/-- The rest of a program keeps the contract after an answer it relies on. -/
theorem Told.relied {d : E.D} {s s' : Session E} {H : Contract E.Cmd E.Resp}
    {Q : E.History → E.A → Prop} (ht : Told d s s')
    (hgets : ∀ {c k r}, s.prog = .exec c k → Answer d s c r → H.gets s.trace c r)
    (hw : Prog.wp H s.trace s.prog Q) : Prog.wp H s'.trace s'.prog Q := by
  cases ht with
  | answer r hp ha hp' htr hc hpe =>
    rw [hp, Prog.wp_exec] at hw
    rw [hp', htr]
    exact hw.2 r (hgets hp ha)
  | wait hp htr hc =>
    rw [hp, htr]
    exact hw

/-- **A session keeps its contract**, where every answer is one it relies on. -/
theorem Reachable.relied
    (hcode : ∀ w c, C w (.start c) → Prog.wp (G c) [] (E.code c) (post c))
    (hgets : ∀ {w : World E} {i : Nat} {s : Session E} {c : E.Cmd}
      {k : E.Resp c → Prog E.Cmd E.Resp E.A} {r : E.Resp c}, Reachable C (.init d₀) w →
      w.sessions[i]? = some s → s.prog = .exec c k → Answer w.db s c r → (G s.call).gets s.trace c r)
    (h : Reachable C (.init d₀) w) {i : Nat} {s : Session E} (hs : w.sessions[i]? = some s) :
    Prog.wp (G s.call) s.trace s.prog (post s.call) := by
  refine h.session_rule (P := fun _ _ _ s => Prog.wp (G s.call) s.trace s.prog (post s.call))
    ?_ ?_ ?_ ?_ i s hs
  · intro w c _ hc
    exact hcode w c hc
  · intro w i o s s' d' hw _ hall hs hm
    rw [hm.told.call_eq]
    exact hm.told.relied (fun hp ha => hgets hw hs hp ha) (hall i s hs)
  · intro w i s s' hw hs hP hb
    have ht : Told w.db s s' := hb.told
    rw [ht.call_eq]
    exact ht.relied (fun hp ha => hgets hw hs hp ha) hP
  · intro w i j o s s' t d' _ _ hall _ _ ht _
    exact hall j t ht

/-- What a session has returned, its postcondition allows. -/
theorem Reachable.returned_relied
    (hcode : ∀ w c, C w (.start c) → Prog.wp (G c) [] (E.code c) (post c))
    (hgets : ∀ {w : World E} {i : Nat} {s : Session E} {c : E.Cmd}
      {k : E.Resp c → Prog E.Cmd E.Resp E.A} {r : E.Resp c}, Reachable C (.init d₀) w →
      w.sessions[i]? = some s → s.prog = .exec c k → Answer w.db s c r → (G s.call).gets s.trace c r)
    (h : Reachable C (.init d₀) w) {i : Nat} {s : Session E} (hs : w.sessions[i]? = some s) {a : E.A}
    (hp : s.prog = .ret a) : post s.call s.trace a := by
  have hk := h.relied hcode hgets hs
  rw [hp] at hk
  exact hk

end ReadCommitted
