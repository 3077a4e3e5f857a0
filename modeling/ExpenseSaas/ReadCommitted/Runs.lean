import ExpenseSaas.ReadCommitted.Locks

/-!
# What holds in every run

Invariants of runs come in two kinds here, each proved once.

* `Reachable.joint_rule` is rely and guarantee: a property of one session that
  its own moves keep, and that survives what any other session commits, holds of
  every session of every reachable world, along with an invariant of the
  committed state. `Reachable.session_rule` is the case of sessions alone, and
  `Reachable.each_session` that of an invariant which speaks of nothing else.
* `Reachable.keeps` carries a contract from a program's code to every moment of
  every run: when a session has issued a command, the contract asks for it, and
  when it has returned, its postcondition holds.
-/

namespace ReadCommitted

variable {E : Engine} {C : World E → Action E → Prop} {d₀ : E.D} {w : World E}

/-! ## Rely and guarantee -/

/--
**An invariant of the committed state and one of every session**, each of which
may be used to keep the other. `own` is the guarantee, for a session's own
moves; `rely` is what it has to survive, another session's commit.
-/
theorem Reachable.joint_rule {I : E.D → Prop} {P : E.D → List (Entry E) → Nat → Session E → Prop}
    (init : I d₀)
    (new : ∀ {w : World E} {c : E.L}, Reachable C (.init d₀) w → C w (.start c) → I w.db →
      P w.db w.log w.sessions.length (.new c))
    (commit : ∀ {w : World E} {i : Nat} {o : E.O} {s s' : Session E} {d' : E.D},
      Reachable C (.init d₀) w → C w (.step i o) → I w.db →
      (∀ (j : Nat) (t : Session E), w.sessions[j]? = some t → P w.db w.log j t) →
      w.sessions[i]? = some s → Move w.db (w.others i) o s s' (some d') → I d')
    (own : ∀ {w : World E} {i : Nat} {o : E.O} {s s' : Session E} {d' : Option E.D},
      Reachable C (.init d₀) w → C w (.step i o) → I w.db →
      (∀ (j : Nat) (t : Session E), w.sessions[j]? = some t → P w.db w.log j t) →
      w.sessions[i]? = some s → Move w.db (w.others i) o s s' d' →
      P (w.moved i s s' d').db (w.moved i s s' d').log i s')
    (broke : ∀ {w : World E} {i : Nat} {s s' : Session E}, Reachable C (.init d₀) w → I w.db →
      w.sessions[i]? = some s → P w.db w.log i s → Broken s s' → P w.db w.log i s')
    (rely : ∀ {w : World E} {i j : Nat} {o : E.O} {s s' t : Session E} {d' : E.D},
      Reachable C (.init d₀) w → C w (.step i o) → I w.db →
      (∀ (j : Nat) (t : Session E), w.sessions[j]? = some t → P w.db w.log j t) →
      i ≠ j → w.sessions[i]? = some s → w.sessions[j]? = some t →
      Move w.db (w.others i) o s s' (some d') → P d' (w.log ++ [⟨i, w.db, d'⟩]) j t)
    (h : Reachable C (.init d₀) w) :
    I w.db ∧ ∀ (i : Nat) (s : Session E), w.sessions[i]? = some s → P w.db w.log i s := by
  induction h with
  | init =>
    refine ⟨init, fun i s hs => ?_⟩
    exact absurd hs (by simp [World.init])
  | @tail w w' a hw hc hstep ih =>
    obtain ⟨hI, ih⟩ := ih
    cases World.step_cases hstep with
    | start c =>
      refine ⟨hI, fun j t ht => ?_⟩
      rcases List.getElem?_of_concat ht with ⟨rfl, rfl⟩ | ht'
      · exact new (w := w) hw hc hI
      · exact ih j t ht'
    | @move i o s s' d' hs hm =>
      refine ⟨?_, fun j t ht => ?_⟩
      · cases d' with
        | none => exact hI
        | some d' => exact commit hw hc hI ih hs hm
      · -- its own session by the guarantee, every other one by the rely, if something was committed
        rcases List.getElem?_of_set ht with ⟨rfl, rfl⟩ | ⟨hji, ht'⟩
        · exact own hw hc hI ih hs hm
        · cases d' with
          | none => simpa [World.moved] using ih j t ht'
          | some d' => simpa [World.moved] using rely hw hc hI ih (Ne.symm hji) hs ht' hm
    | @broke a i s s' ha hs hb =>
      refine ⟨hI, fun j t ht => ?_⟩
      rcases List.getElem?_of_set ht with ⟨rfl, rfl⟩ | ⟨_, ht'⟩
      · exact broke (w := w) hw hI hs (ih _ s hs) hb
      · exact ih j t ht'

/-- **A session's invariant**, when the committed state needs none. -/
theorem Reachable.session_rule {P : E.D → List (Entry E) → Nat → Session E → Prop}
    (new : ∀ {w : World E} {c : E.L}, Reachable C (.init d₀) w → C w (.start c) →
      P w.db w.log w.sessions.length (.new c))
    (own : ∀ {w : World E} {i : Nat} {o : E.O} {s s' : Session E} {d' : Option E.D},
      Reachable C (.init d₀) w → C w (.step i o) →
      (∀ (j : Nat) (t : Session E), w.sessions[j]? = some t → P w.db w.log j t) →
      w.sessions[i]? = some s → Move w.db (w.others i) o s s' d' →
      P (w.moved i s s' d').db (w.moved i s s' d').log i s')
    (broke : ∀ {w : World E} {i : Nat} {s s' : Session E}, Reachable C (.init d₀) w →
      w.sessions[i]? = some s → P w.db w.log i s → Broken s s' → P w.db w.log i s')
    (rely : ∀ {w : World E} {i j : Nat} {o : E.O} {s s' t : Session E} {d' : E.D},
      Reachable C (.init d₀) w → C w (.step i o) →
      (∀ (j : Nat) (t : Session E), w.sessions[j]? = some t → P w.db w.log j t) →
      i ≠ j → w.sessions[i]? = some s → w.sessions[j]? = some t →
      Move w.db (w.others i) o s s' (some d') → P d' (w.log ++ [⟨i, w.db, d'⟩]) j t)
    (h : Reachable C (.init d₀) w) :
    ∀ (i : Nat) (s : Session E), w.sessions[i]? = some s → P w.db w.log i s :=
  (h.joint_rule (I := fun _ => True) trivial (fun hw hc _ => new hw hc) (fun _ _ _ _ _ _ => trivial)
    (fun hw hc _ => own hw hc) (fun hw _ => broke hw) (fun hw hc _ => rely hw hc)).2

/-- **An invariant of every session by itself**, kept by its own moves and by the failures a run has. -/
theorem Reachable.each_session {P : Session E → Prop} {i : Nat} {s : Session E}
    (new : ∀ c, P (.new c))
    (own : ∀ {w : World E} {i : Nat} {o : E.O} {s s' : Session E} {d' : Option E.D},
      Reachable C (.init d₀) w → C w (.step i o) → w.sessions[i]? = some s →
      Move w.db (w.others i) o s s' d' → P s → P s')
    (fail : ∀ {w : World E} {i : Nat} {e : E.ε} {s s' : Session E}, Reachable C (.init d₀) w →
      C w (.fail i e) → w.sessions[i]? = some s → Broken s s' → P s → P s')
    (deadlock : ∀ {w : World E} {i : Nat} {s s' : Session E}, Reachable C (.init d₀) w →
      C w (.deadlock i) → w.sessions[i]? = some s → s.stuck (w.others i) = true → Broken s s' →
      P s → P s')
    (h : Reachable C (.init d₀) w) (hs : w.sessions[i]? = some s) : P s := by
  induction h generalizing i s with
  | init => exact absurd hs (by simp [World.init])
  | @tail w w' a hw hc hstep ih =>
    unfold World.step at hstep
    cases a with
    | start c =>
      cases hstep
      rcases List.getElem?_of_concat hs with ⟨_, rfl⟩ | hs'
      · exact new c
      · exact ih hs'
    | step j o =>
      simp only [Option.bind_eq_bind, Option.bind_eq_some_iff] at hstep
      obtain ⟨t, ht, ⟨t', d'⟩, hmove, hstep⟩ := hstep
      have hset : (w.sessions.set j t')[i]? = some s := by cases d' <;> cases hstep <;> exact hs
      rcases List.getElem?_of_set hset with ⟨_, rfl⟩ | ⟨_, hs'⟩
      · exact own hw hc ht (Session.move_of_step hmove) (ih ht)
      · exact ih hs'
    | fail j e =>
      simp only [Option.bind_eq_bind, Option.bind_eq_some_iff, Option.some.injEq] at hstep
      obtain ⟨t, ht, t', hfail, rfl⟩ := hstep
      rcases List.getElem?_of_set hs with ⟨_, rfl⟩ | ⟨_, hs'⟩
      · exact fail hw hc ht (Session.broken_of_fail hfail) (ih ht)
      · exact ih hs'
    | deadlock j =>
      simp only [Option.bind_eq_bind, Option.bind_eq_some_iff] at hstep
      obtain ⟨t, ht, hstep⟩ := hstep
      split at hstep
      · rename_i hstuck
        simp only [Option.bind_eq_some_iff, Option.some.injEq] at hstep
        obtain ⟨t', hfail, rfl⟩ := hstep
        rcases List.getElem?_of_set hs with ⟨_, rfl⟩ | ⟨_, hs'⟩
        · exact deadlock hw hc ht hstuck (Session.broken_of_fail hfail) (ih ht)
        · exact ih hs'
      · cases hstep

/--
**Two sessions are never in conflict**, if no call begins in conflict and no move
or failure of one session brings it into conflict with another one.
-/
theorem Reachable.pair_rule {P : Session E → Session E → Prop} (symm : ∀ s t, P s t → P t s)
    (new : ∀ c t, ¬ P (.new c) t)
    (own : ∀ {w : World E} {i j : Nat} {o : E.O} {s s' t : Session E} {d' : Option E.D},
      Reachable C (.init d₀) w → C w (.step i o) → i ≠ j → w.sessions[i]? = some s →
      w.sessions[j]? = some t → Move w.db (w.others i) o s s' d' → P s' t → P s t)
    (broke : ∀ {s s' t : Session E}, Broken s s' → P s' t → P s t)
    (h : Reachable C (.init d₀) w) {i j : Nat} {s t : Session E} (hij : i ≠ j)
    (hs : w.sessions[i]? = some s) (ht : w.sessions[j]? = some t) : ¬ P s t := by
  induction h generalizing i j s t with
  | init => exact absurd hs (by simp [World.init])
  | @tail w w' a hw hc hstep ih =>
    -- It is enough to look at the session that has changed, the other one being as before.
    have hset : ∀ {n : Nat} {u u' : Session E}, w.sessions[n]? = some u →
        (∀ (m : Nat) (v : Session E), n ≠ m → w.sessions[m]? = some v → P u' v → P u v) →
        (w.sessions.set n u')[i]? = some s → (w.sessions.set n u')[j]? = some t → ¬ P s t := by
      intro n u u' hu hmoved hs ht
      rcases List.getElem?_of_set hs with ⟨rfl, rfl⟩ | ⟨_, hs'⟩
      · rcases List.getElem?_of_set ht with ⟨rfl, _⟩ | ⟨_, ht'⟩
        · exact absurd rfl hij
        · exact fun hP => ih hij hu ht' (hmoved j t hij ht' hP)
      · rcases List.getElem?_of_set ht with ⟨rfl, rfl⟩ | ⟨_, ht'⟩
        · exact fun hP => ih hij.symm hu hs' (hmoved i s hij.symm hs' (symm _ _ hP))
        · exact ih hij hs' ht'
    cases World.step_cases hstep with
    | start c =>
      rcases List.getElem?_of_concat hs with ⟨_, rfl⟩ | hs
      · exact new c t
      · rcases List.getElem?_of_concat ht with ⟨_, rfl⟩ | ht
        · exact fun hP => new c s (symm _ _ hP)
        · exact ih hij hs ht
    | @move n o u u' d' hu hm =>
      exact hset hu (fun m v hne hv => own hw hc hne hu hv hm) hs ht
    | broke ha hu hb => exact hset hu (fun m v _ _ => broke hb) hs ht

/-! ## Contracts -/

/-- The answers a command can get, whatever the state. -/
def Engine.Possible (E : Engine) : (c : E.Cmd) → E.Resp c → Prop
  | .sql q, .ok r => match E.sem q with
    | .query read => ∃ d c o, read d c o = .ok r
    | .insert row resp => ∃ d c o w, row d c o = .ok w ∧ r = resp w
    | .update _ apply resp => ∃ ws, r = resp ws ∧
        ∀ w ∈ ws, ∃ snap cur o k, apply snap cur o k = some (.ok w)
  | .ext x, r => ∃ o, r = E.answer o x
  | _, _ => True

/-- The contract of a client that relies on nothing but the meaning of its commands. -/
def Engine.contract (E : Engine) (asks : E.History → E.Cmd → Prop) :
    Contract E.Cmd E.Resp := ⟨asks, fun _ => E.Possible⟩

/-- An update in progress belongs to the command the session has issued. -/
def Session.PendingOk (s : Session E) : Prop :=
  ∀ p, s.pending = some p → ∃ q k targets apply resp, s.prog = .exec (.sql q) k ∧
    E.sem q = .update targets apply resp ∧
    ∀ w ∈ p.done, ∃ snap cur o key, apply snap cur o key = some (.ok w)

section

variable {d : E.D} {others : List E.W} {o : E.O} {s s' : Session E} {d' : Option E.D}

theorem Session.PendingOk.of_none (h : s.pending = none) : s.PendingOk := by
  intro p hp
  rw [h] at hp
  cases hp

theorem Move.pendingOk (h : Move d others o s s' d') (hs : s.PendingOk) : s'.PendingOk := by
  cases h with
  | snapshot hp ht hf hq hpe =>
    intro p hp'
    cases hp'
    exact ⟨_, _, _, _, _, hp, hq, by simp⟩
  | skip hp ht hf hq hpe hto hl ha =>
    intro p hp'
    cases hp'
    obtain ⟨q', k', targets', apply', resp', h₁, h₂, h₃⟩ := hs _ hpe
    exact ⟨q', k', targets', apply', resp', h₁, h₂, h₃⟩
  | @write q k t targets apply resp p key rest v hp ht hf hq hpe hto hl ha =>
    intro p hp'
    cases hp'
    obtain ⟨q', k', targets', apply', resp', h₁, h₂, h₃⟩ := hs _ hpe
    rw [hp] at h₁
    cases h₁
    rw [hq] at h₂
    cases h₂
    refine ⟨q, k, targets, apply, resp, hp, hq, fun u hu => ?_⟩
    rcases List.mem_append.mp hu with hu | hu
    · exact h₃ u hu
    · rw [List.mem_singleton.mp hu]
      exact ⟨_, _, _, _, ha⟩
  | _ => exact .of_none rfl

theorem Broken.pendingOk (h : Broken s s') : s'.PendingOk := by
  cases h <;> exact .of_none rfl

theorem Answer.possible {c : E.Cmd} {r : E.Resp c} (h : Answer d s c r) (hs : s.PendingOk)
    {k : E.Resp c → Prog E.Cmd E.Resp E.A} (hp : s.prog = .exec c k) : E.Possible c r := by
  cases h with
  | query ht hq hr =>
    simp only [Engine.Possible, hq]
    exact ⟨_, _, _, hr⟩
  | insert ht hq hr =>
    simp only [Engine.Possible, hq]
    exact ⟨_, _, _, _, hr, rfl⟩
  | update hq hpe hto =>
    obtain ⟨q', k', targets', apply', resp', h₁, h₂, h₃⟩ := hs _ hpe
    rw [hp] at h₁
    cases h₁
    rw [hq] at h₂
    cases h₂
    simp only [Engine.Possible, hq]
    exact ⟨_, rfl, h₃⟩
  | error e => trivial
  | ext o => exact ⟨o, rfl⟩
  | begin r => trivial
  | commit r => trivial
  | rollback r => trivial

variable {asks : E.History → E.Cmd → Prop} {Q : E.History → E.A → Prop}

/-- The rest of a program keeps the contract after every move. -/
theorem Told.wp (h : Told d s s') (hs : s.PendingOk)
    (hw : Prog.wp (E.contract asks) s.trace s.prog Q) :
    Prog.wp (E.contract asks) s'.trace s'.prog Q := by
  cases h with
  | answer r hp ha hp' ht hc hpe =>
    rw [hp, Prog.wp_exec] at hw
    rw [hp', ht]
    exact hw.2 r (ha.possible hs hp)
  | wait hp ht hc =>
    rw [hp, ht]
    exact hw

end

namespace Reachable

variable {i : Nat} {s : Session E}

theorem pendingOk (h : Reachable C (.init d₀) w) (hs : w.sessions[i]? = some s) :
    s.PendingOk := by
  refine h.session_rule (P := fun _ _ _ s => s.PendingOk) ?_ ?_ ?_ ?_ i s hs
  · intro w c _ _
    exact .of_none rfl
  · intro w i o s s' d' _ _ hall hs hm
    exact hm.pendingOk (hall i s hs)
  · intro w i s s' _ _ _ hb
    exact hb.pendingOk
  · intro w i j o s s' t d' _ _ hall _ _ ht _
    exact hall j t ht

section

variable {asks : E.L → E.History → E.Cmd → Prop} {post : E.L → E.History → E.A → Prop}

/-- **A session keeps the contract its code keeps**, all along the run. -/
theorem keeps (hcode : ∀ w c, C w (.start c) →
      Prog.wp (E.contract (asks c)) [] (E.code c) (post c))
    (h : Reachable C (.init d₀) w) (hs : w.sessions[i]? = some s) :
    Prog.wp (E.contract (asks s.call)) s.trace s.prog (post s.call) := by
  refine h.session_rule (P := fun _ _ _ s =>
    Prog.wp (E.contract (asks s.call)) s.trace s.prog (post s.call)) ?_ ?_ ?_ ?_ i s hs
  · intro w c _ hc
    exact hcode w c hc
  · intro w i o s s' d' hw _ hall hs hm
    rw [hm.told.call_eq]
    exact hm.told.wp (hw.pendingOk hs) (hall i s hs)
  · intro w i s s' hw hs hp hb
    have ht : Told w.db s s' := hb.told
    rw [ht.call_eq]
    exact ht.wp (hw.pendingOk hs) hp
  · intro w i j o s s' t d' _ _ hall _ _ ht _
    exact hall j t ht

/-- What a session has issued, its contract asks for. -/
theorem asked (hcode : ∀ w c, C w (.start c) →
      Prog.wp (E.contract (asks c)) [] (E.code c) (post c))
    (h : Reachable C (.init d₀) w) (hs : w.sessions[i]? = some s) {c : E.Cmd}
    {k : E.Resp c → Prog E.Cmd E.Resp E.A} (hp : s.prog = .exec c k) :
    asks s.call s.trace c := by
  have hk := h.keeps hcode hs
  rw [hp, Prog.wp_exec] at hk
  exact hk.1

/-- And so it is for every command of its history. -/
theorem asked_before (hcode : ∀ w c, C w (.start c) →
      Prog.wp (E.contract (asks c)) [] (E.code c) (post c))
    (h : Reachable C (.init d₀) w) (hs : w.sessions[i]? = some s) {pre : E.History}
    {ev : Event E.Cmd E.Resp} (hpre : pre ++ [ev] <+: s.trace) : asks s.call pre ev.1 := by
  have htold : ∀ {w : World E} {i : Nat} {s s' : Session E} {d : E.D}, Reachable C (.init d₀) w →
      w.sessions[i]? = some s → Told d s s' →
      (∀ pre (ev : Event E.Cmd E.Resp), pre ++ [ev] <+: s.trace → asks s.call pre ev.1) →
      ∀ pre (ev : Event E.Cmd E.Resp), pre ++ [ev] <+: s'.trace → asks s'.call pre ev.1 := by
    intro w i s s' d hw hs ht hP pre ev hpre
    rw [ht.call_eq]
    cases ht with
    | answer r hp ha hp' htr hcall hpe =>
      rw [htr] at hpre
      rcases List.prefix_concat_iff.mp hpre with hlast | hold
      · obtain ⟨rfl, rfl⟩ := List.append_singleton_inj.mp hlast
        exact hw.asked hcode hs hp
      · exact hP pre ev hold
    | wait hp htr hcall =>
      rw [htr] at hpre
      exact hP pre ev hpre
  refine h.session_rule (P := fun _ _ _ s => ∀ pre (ev : Event E.Cmd E.Resp),
    pre ++ [ev] <+: s.trace → asks s.call pre ev.1) ?_ ?_ ?_ ?_ i s hs pre ev hpre
  · intro w c _ _ pre ev hpre
    simp [Session.new] at hpre
  · intro w i o s s' d' hw _ hall hs hm
    exact htold hw hs hm.told (hall i s hs)
  · intro w i s s' hw hs hP hb
    exact htold (d := w.db) hw hs hb.told hP
  · intro w i j o s s' t d' _ _ hall _ _ ht _
    exact hall j t ht

/-- What a session has returned, its postcondition allows. -/
theorem returned (hcode : ∀ w c, C w (.start c) →
      Prog.wp (E.contract (asks c)) [] (E.code c) (post c))
    (h : Reachable C (.init d₀) w) (hs : w.sessions[i]? = some s) {a : E.A}
    (hp : s.prog = .ret a) : post s.call s.trace a := by
  have hk := h.keeps hcode hs
  rw [hp] at hk
  exact hk

end

end Reachable

end ReadCommitted
