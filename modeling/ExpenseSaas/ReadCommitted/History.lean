import Mathlib.Data.List.Pairwise
import ExpenseSaas.ReadCommitted.Runs

/-!
# Rows through a run

How a row's versions are related along a run. `Relates` was defined for one
session; `Reachable.relates` reduces it to what each write does to the row it
writes. For a preorder that every write respects (`Engine.Order.Respected`) the
same then holds between the committed row and any session's version of it,
before and after each commit, and from every committed state so far to the
current one.

`Seen` is an answer a transaction got before it wrote anything.
`Reachable.read_committed` says that such an answer is that of a committed state.
-/

namespace ReadCommitted

variable {E : Engine} {C : World E → Action E → Prop} {d₀ : E.D} {w : World E}

/-! ## Committed states -/

/-- The committed states so far, oldest first. -/
def history (d₀ : E.D) (log : List (Entry E)) : List E.D := d₀ :: log.map Entry.post

theorem history_append {log : List (Entry E)} {e : Entry E} :
    history d₀ (log ++ [e]) = history d₀ log ++ [e.post] := by
  simp [history]

theorem mem_history_of_mem {log : List (Entry E)} {e : Entry E} (h : e ∈ log) :
    e.post ∈ history d₀ log :=
  List.mem_cons_of_mem _ (List.mem_map_of_mem h)

theorem Reachable.db_mem_history (h : Reachable C (.init d₀) w) :
    w.db ∈ history d₀ w.log := by
  refine h.invariant (I := fun w => w.db ∈ history d₀ w.log) (by simp [history, World.init])
    (fun w w' a _ hw _ hstep => ?_)
  cases World.step_cases hstep with
  | start c => exact hw
  | broke ha hs hb => exact hw
  | @move i o s s' d' hs hm =>
    cases d' with
    | none => simpa [World.moved] using hw
    | some d => simp [World.moved, history_append]

/-- Where an entry of the log comes from. -/
theorem Reachable.log_rule {J : Nat → E.D → E.D → Prop}
    (commit : ∀ {w : World E} {i : Nat} {o : E.O} {s s' : Session E} {d' : E.D},
      Reachable C (.init d₀) w → C w (.step i o) → w.sessions[i]? = some s →
      Move w.db (w.others i) o s s' (some d') → J i w.db d')
    (h : Reachable C (.init d₀) w) : ∀ e ∈ w.log, J e.sess e.pre e.post := by
  refine h.invariant (I := fun w => ∀ e ∈ w.log, J e.sess e.pre e.post)
    (by simp [World.init]) (fun w w' a hw ih hc hstep => ?_)
  cases World.step_cases hstep with
  | start c => exact ih
  | broke ha hs hb => exact ih
  | @move i o s s' d' hs hm =>
    cases d' with
    | none => simpa [World.moved] using ih
    | some d =>
      intro e he
      simp only [World.moved, Option.map_some, Option.toList_some, List.mem_append,
        List.mem_singleton] at he
      rcases he with he | rfl
      · exact ih e he
      · exact commit hw hc hs hm

/--
What every commit does, said of the call that the committing session runs and of
what it has been answered by then, which stays true as its history goes on.
-/
theorem Reachable.traced_entry_rule {J : E.L → E.History → E.D → E.D → Prop}
    (mono : ∀ c tr tr' d d', tr <+: tr' → J c tr d d' → J c tr' d d')
    (commit : ∀ {w : World E} {i : Nat} {o : E.O} {s s' : Session E} {d' : E.D},
      Reachable C (.init d₀) w → C w (.step i o) → w.sessions[i]? = some s →
      Move w.db (w.others i) o s s' (some d') → J s.call s'.trace w.db d')
    (h : Reachable C (.init d₀) w) :
    ∀ e ∈ w.log, ∃ s, w.sessions[e.sess]? = some s ∧ J s.call s.trace e.pre e.post := by
  refine h.invariant (I := fun w => ∀ e ∈ w.log, ∃ s, w.sessions[e.sess]? = some s ∧
    J s.call s.trace e.pre e.post) (by simp [World.init]) (fun w w' a hw ih hc hstep => ?_)
  -- The session that moves stays where it is, with the same call and a longer history.
  have hset : ∀ {i : Nat} {s s' : Session E} {d : E.D}, w.sessions[i]? = some s → Told d s s' →
      ∀ e ∈ w.log, ∃ t, (w.sessions.set i s')[e.sess]? = some t ∧ J t.call t.trace e.pre e.post := by
    intro i s s' d hs htold e he
    obtain ⟨t, ht, hJ⟩ := ih e he
    by_cases hi : i = e.sess
    · subst hi
      cases hs.symm.trans ht
      have hlt := (List.getElem?_eq_some_iff.mp ht).1
      refine ⟨s', List.getElem?_set_self hlt, ?_⟩
      rw [htold.call_eq]
      exact mono _ _ _ _ _ htold.trace_prefix hJ
    · exact ⟨t, by rwa [List.getElem?_set_ne hi], hJ⟩
  cases World.step_cases hstep with
  | start c =>
    intro e he
    obtain ⟨t, ht, hJ⟩ := ih e he
    have hlt := (List.getElem?_eq_some_iff.mp ht).1
    exact ⟨t, by rwa [List.getElem?_append_left hlt], hJ⟩
  | broke ha hs hb => exact hset (d := w.db) hs hb.told
  | @move i o s s' d' hs hm =>
    cases d' with
    | none => simpa [World.moved] using hset hs hm.told
    | some d =>
      intro e he
      simp only [World.moved, Option.map_some, Option.toList_some, List.mem_append,
        List.mem_singleton] at he
      rcases he with he | rfl
      · exact hset hs hm.told e he
      · have hlt := (List.getElem?_eq_some_iff.mp hs).1
        refine ⟨s', List.getElem?_set_self hlt, ?_⟩
        rw [hm.told.call_eq]
        exact commit hw hc hs hm

/-- The same, when the history does not matter. -/
theorem Reachable.entry_rule {J : E.L → E.D → E.D → Prop}
    (commit : ∀ {w : World E} {i : Nat} {o : E.O} {s s' : Session E} {d' : E.D},
      Reachable C (.init d₀) w → C w (.step i o) → w.sessions[i]? = some s →
      Move w.db (w.others i) o s s' (some d') → J s.call w.db d')
    (h : Reachable C (.init d₀) w) :
    ∀ e ∈ w.log, ∃ s, w.sessions[e.sess]? = some s ∧ J s.call e.pre e.post :=
  h.traced_entry_rule (J := fun c _ => J c) (fun _ _ _ _ _ _ h => h) commit

/-- Who is in the log has been told that its commit went through. -/
theorem Reachable.committed_of_log (h : Reachable C (.init d₀) w) : ∀ e ∈ w.log, ∃ s,
    w.sessions[e.sess]? = some s ∧ (⟨.commit, .ok true⟩ : Event E.Cmd E.Resp) ∈ s.trace := by
  refine h.traced_entry_rule (J := fun _ tr _ _ => (⟨.commit, .ok true⟩ : Event E.Cmd E.Resp) ∈ tr)
    (fun _ _ _ _ _ hp h => hp.subset h) (fun {w i o s s' d'} _ _ _ hm => ?_)
  obtain ⟨_, _, _, _, _, _, _, htr⟩ := hm.publish
  rw [htr]
  exact List.mem_append_right _ (List.mem_singleton_self _)

theorem Move.publishes {d d' : E.D} {others : List E.W} {o : E.O} {s s' : Session E}
    (h : Move d others o s s' (some d')) : d' = s.view d := by
  cases h
  rfl

/-- What the first state has and every commit keeps, every committed state has. -/
theorem Reachable.history_rule {I : E.D → Prop} (h₀ : I d₀)
    (hcommit : ∀ {w : World E} {i : Nat} {o : E.O} {s s' : Session E} {d' : E.D},
      Reachable C (.init d₀) w → C w (.step i o) → w.sessions[i]? = some s →
      Move w.db (w.others i) o s s' (some d') → I w.db → I d')
    (h : Reachable C (.init d₀) w) : ∀ d ∈ history d₀ w.log, I d := by
  refine h.invariant (I := fun w => ∀ d ∈ history d₀ w.log, I d) ?_
    (fun w w' a hw ih hc hstep => ?_)
  · intro d hd
    simp only [World.init, history, List.map_nil, List.mem_singleton] at hd
    exact hd ▸ h₀
  · cases World.step_cases hstep with
    | start c => exact ih
    | broke ha hs hb => exact ih
    | @move i o s s' d' hs hm =>
      cases d' with
      | none => simpa [World.moved] using ih
      | some d' =>
        simp only [World.moved, Option.map_some, Option.toList_some]
        intro d hd
        rw [history_append, List.mem_append, List.mem_singleton] at hd
        rcases hd with hd | rfl
        · exact ih d hd
        · exact hcommit hw hc hs hm (ih _ hw.db_mem_history)

/-- What some committed state had and every commit keeps, the current one has. -/
theorem Reachable.since {P : E.D → Prop} (h : Reachable C (.init d₀) w)
    (hP : ∃ d ∈ history d₀ w.log, P d) (hkeep : ∀ e ∈ w.log, P e.pre → P e.post) : P w.db := by
  induction h with
  | init =>
    obtain ⟨d, hd, hP⟩ := hP
    simp only [World.init, history, List.map_nil, List.mem_singleton] at hd
    exact hd ▸ hP
  | @tail w w' a hw hc hstep ih =>
    cases World.step_cases hstep with
    | start c => exact ih hP hkeep
    | broke ha hs hb => exact ih hP hkeep
    | @move i o s s' d' hs hm =>
      cases d' with
      | none => exact ih (by simpa [World.moved] using hP) (by simpa [World.moved] using hkeep)
      | some d' =>
        simp only [World.moved, Option.map_some, Option.toList_some, Option.getD_some] at hP hkeep ⊢
        obtain ⟨d, hd, hP⟩ := hP
        rw [history_append, List.mem_append, List.mem_singleton] at hd
        rcases hd with hd | rfl
        · refine hkeep ⟨i, w.db, d'⟩ (by simp) (ih ⟨d, hd, hP⟩ fun e he => ?_)
          exact hkeep e (List.mem_append_left _ he)
        · exact hP

/-- What every entry starts from is a committed state too. -/
theorem Reachable.pre_mem_history (h : Reachable C (.init d₀) w) :
    ∀ e ∈ w.log, e.pre ∈ history d₀ w.log := by
  refine h.invariant (I := fun w => ∀ e ∈ w.log, e.pre ∈ history d₀ w.log) (by simp [World.init])
    (fun w w' a hw ih _ hstep => ?_)
  cases World.step_cases hstep with
  | start c => exact ih
  | broke ha hs hb => exact ih
  | @move i o s s' d' hs hm =>
    cases d' with
    | none => simpa [World.moved] using ih
    | some d' =>
      simp only [World.moved, Option.map_some, Option.toList_some]
      intro e he
      rw [history_append]
      rcases List.mem_append.mp he with he | he
      · exact List.mem_append_left _ (ih e he)
      · rw [List.mem_singleton.mp he]
        exact List.mem_append_left _ hw.db_mem_history

/-! ## Relations between the versions of a row -/

section

variable {R : E.L → E.History → E.K → Option E.W → Option E.W → Prop}

/--
**What every write respects, every session respects.** The relation may depend
on the call the session runs and on what it has seen.
-/
theorem Reachable.relates (hrefl : ∀ c tr k r, R c tr k r r)
    (hmono : ∀ c tr evs k a b, R c tr k a b → R c (tr ++ evs) k a b)
    (hwrite : ∀ {w : World E} {i : Nat} {o : E.O} {s : Session E} {q : E.S} {t : Txn E} {v : E.W},
      Reachable C (.init d₀) w → C w (.step i o) → w.sessions[i]? = some s →
      s.Relates (R s.call s.trace) w.db → Writing w.db (w.others i) s q t v →
      R s.call s.trace (E.lock v) (E.get w.db (E.lock v)) (some v))
    (h : Reachable C (.init d₀) w) {i : Nat} {s : Session E} (hs : w.sessions[i]? = some s) :
    s.Relates (R s.call s.trace) w.db := by
  refine h.session_rule (P := fun d _ _ s => s.Relates (R s.call s.trace) d) ?_ ?_ ?_ ?_ i s hs
  · intro w c _ _
    exact Session.relates_of_writes_nil (hrefl c _) rfl
  · intro w i o s s' d' hw hc hall hs hm
    obtain ⟨evs, htr⟩ := hm.told.trace_prefix
    rw [hm.told.call_eq, ← htr]
    cases hm.effect with
    | quiet hwr =>
      intro k
      rw [Session.view_congr hwr]
      exact hmono _ _ _ _ _ _ (hall i s hs k)
    | undo hwr => exact Session.relates_of_writes_nil (hrefl _ _) hwr
    | wrote v hv hwr =>
      have hrel := (hall i s hs).wrote hwr (hwrite hw hc hs (hall i s hs) hv)
      exact fun k => hmono _ _ _ _ _ _ (hrel k)
    | publish hp ht hf hwr => exact Session.relates_of_writes_nil (hrefl _ _) hwr
  · intro w i s s' _ _ _ hb
    exact Session.relates_of_writes_nil (hrefl _ _) hb.writes
  · intro w i j o s s' t d' hw _ hall hij hs ht hm
    rw [hm.publishes]
    exact (hall j t ht).publish (hrefl _ _) (World.locks_disjoint hw i j s t hij hs ht)

end

/-- What every write has, said of the call that makes it, every version a session holds has. -/
theorem Reachable.writes_rule {P : E.L → E.W → Prop}
    (hwrite : ∀ {w : World E} {i : Nat} {o : E.O} {s : Session E} {q : E.S} {t : Txn E} {v : E.W},
      Reachable C (.init d₀) w → C w (.step i o) → w.sessions[i]? = some s →
      Writing w.db (w.others i) s q t v → P s.call v)
    (h : Reachable C (.init d₀) w) {i : Nat} {s : Session E} (hs : w.sessions[i]? = some s) :
    ∀ v ∈ s.writes, P s.call v := by
  refine h.session_rule (P := fun _ _ _ s => ∀ v ∈ s.writes, P s.call v) ?_ ?_ ?_ ?_ i s hs
  · intro w c _ _ v hv
    exact absurd hv List.not_mem_nil
  · intro w i o s s' d' hw hc hall hs hm v hv
    rw [hm.told.call_eq]
    rcases hm.effect.mem_writes hv with hv | ⟨q, t, hv⟩
    · exact hall i s hs v hv
    · exact hwrite hw hc hs hv
  · intro w i s s' _ _ _ hb v hv
    rw [hb.writes] at hv
    exact absurd hv List.not_mem_nil
  · intro w i j o s s' t d' _ _ hall _ _ ht _
    exact hall j t ht

/-- A session that only adds rows holds rows that are not there for anybody else. -/
theorem Reachable.unpublished {P : E.L → Prop}
    (hadds : ∀ {w : World E} {i : Nat} {s : Session E} {q : E.S} {t : Txn E} {v : E.W},
      Reachable C (.init d₀) w → w.sessions[i]? = some s → P s.call →
      Writing w.db (w.others i) s q t v → E.inserts q = true)
    (h : Reachable C (.init d₀) w) {i : Nat} {s : Session E} (hs : w.sessions[i]? = some s)
    (hP : P s.call) : ∀ v ∈ s.writes, E.get w.db (E.lock v) = none := by
  refine h.session_rule (P := fun d _ _ s => P s.call →
    ∀ v ∈ s.writes, E.get d (E.lock v) = none) ?_ ?_ ?_ ?_ i s hs hP
  · intro w c _ _ _ v hv
    exact absurd hv List.not_mem_nil
  · intro w i o s s' d' hw _ hall hs hm hP v hv
    rw [hm.told.call_eq] at hP
    cases d' with
    | none =>
      rcases hm.effect.mem_writes hv with hv | ⟨q, t, hv⟩
      · exact hall i s hs hP v hv
      · have hfresh := hv.fresh (hadds hw hs hP hv)
        by_cases hk : s.Holds (E.lock v)
        · obtain ⟨u, _, _, hget⟩ := Session.get_view_of_holds hk
          exact nomatch (hget w.db).symm.trans hfresh
        · exact (Session.get_view_of_free hk).symm.trans hfresh
    | some d' =>
      rw [Session.writes_of_closed hm.publish.2.1] at hv
      exact absurd hv List.not_mem_nil
  · intro w i s s' _ _ _ hb _ v hv
    rw [hb.writes] at hv
    exact absurd hv List.not_mem_nil
  · intro w i j o s s' t d' hw _ hall hij hs ht hm hP v hv
    rw [hm.publishes, Session.get_publish_of_holds (World.locks_disjoint hw i j s t hij hs ht)
      (Session.holds_of_mem hv)]
    exact hall j t ht hP v hv

/-- A preorder on the versions of each row: how rows may evolve. -/
structure Engine.Order (E : Engine) where
  le : E.K → Option E.W → Option E.W → Prop
  refl : ∀ k r, le k r r
  trans : ∀ k a b c, le k a b → le k b c → le k a c

/-- Every write moves the row it writes up in the order. -/
def Engine.Order.Respected (O : E.Order) (C : World E → Action E → Prop) (d₀ : E.D) : Prop :=
  ∀ {w : World E} {i : Nat} {o : E.O} {s : Session E} {q : E.S} {t : Txn E} {v : E.W},
    Reachable C (.init d₀) w → C w (.step i o) → w.sessions[i]? = some s →
    Writing w.db (w.others i) s q t v →
    O.le (E.lock v) (E.get (s.view w.db) (E.lock v)) (some v)

namespace Engine.Order

variable {O : E.Order}

/-- A session's own versions are later than the committed ones. -/
theorem Respected.relates (hO : O.Respected C d₀) (h : Reachable C (.init d₀) w) {i : Nat}
    {s : Session E} (hs : w.sessions[i]? = some s) : s.Relates O.le w.db := by
  refine h.relates (R := fun _ _ => O.le) (fun _ _ => O.refl) (fun _ _ _ _ _ _ h => h) ?_ hs
  intro w i o s q t v hw hc hs hrel hv
  exact O.trans _ _ _ _ (hrel _) (hO hw hc hs hv)

/-- Every commit moves every row up. -/
theorem Respected.log (hO : O.Respected C d₀) (h : Reachable C (.init d₀) w) :
    ∀ e ∈ w.log, ∀ k, O.le k (E.get e.pre k) (E.get e.post k) := by
  refine h.log_rule (J := fun _ pre post => ∀ k, O.le k (E.get pre k) (E.get post k))
    (fun {w i o s s' d'} hw _ hs hm => ?_)
  rw [hm.publishes]
  exact hO.relates hw hs

/-- Every committed state so far is below the current one. -/
theorem Respected.history (hO : O.Respected C d₀) (h : Reachable C (.init d₀) w) :
    ∀ d ∈ history d₀ w.log, ∀ k, O.le k (E.get d k) (E.get w.db k) := by
  induction h with
  | init =>
    intro d hd k
    simp only [World.init, ReadCommitted.history, List.map_nil, List.mem_singleton] at hd
    subst hd
    exact O.refl k _
  | @tail w w' a hw hc hstep ih =>
    have hlog := hO.log (.tail hw hc hstep)
    cases World.step_cases hstep with
    | start c => exact ih
    | broke ha hs hb => exact ih
    | @move i o s s' d' hs hm =>
      cases d' with
      | none => simpa [World.moved] using ih
      | some d' =>
        simp only [World.moved, Option.map_some, Option.toList_some, Option.getD_some] at hlog ⊢
        intro d hd k
        rw [history_append, List.mem_append, List.mem_singleton] at hd
        rcases hd with hd | rfl
        · exact O.trans k _ _ _ (ih d hd k) (hlog ⟨i, w.db, d'⟩ (by simp) k)
        · exact O.refl k _

/-- What one commit left is below what any later commit found. -/
theorem Respected.pairwise (hO : O.Respected C d₀) (h : Reachable C (.init d₀) w) :
    w.log.Pairwise fun e f => ∀ k, O.le k (E.get e.post k) (E.get f.pre k) := by
  refine h.invariant (I := fun w => w.log.Pairwise fun e f =>
    ∀ k, O.le k (E.get e.post k) (E.get f.pre k)) (by simp [World.init])
    (fun w w' a hw ih _ hstep => ?_)
  cases World.step_cases hstep with
  | start c => exact ih
  | broke ha hs hb => exact ih
  | @move i o s s' d' hs hm =>
    cases d' with
    | none => simpa [World.moved] using ih
    | some d' =>
      simp only [World.moved, Option.map_some, Option.toList_some]
      refine List.pairwise_append.mpr ⟨ih, List.pairwise_singleton _ _, fun e he f hf => ?_⟩
      rw [List.mem_singleton.mp hf]
      exact hO.history hw e.post (mem_history_of_mem he)

/-- Of two commits one is the earlier. -/
theorem Respected.ordered (hO : O.Respected C d₀) (h : Reachable C (.init d₀) w) {e f : Entry E}
    (he : e ∈ w.log) (hf : f ∈ w.log) (hne : e ≠ f) :
    (∀ k, O.le k (E.get e.post k) (E.get f.pre k)) ∨
      ∀ k, O.le k (E.get f.post k) (E.get e.pre k) := by
  have hpair := (hO.pairwise h).imp (S := fun e f : Entry E =>
    (∀ k, O.le k (E.get e.post k) (E.get f.pre k)) ∨
      ∀ k, O.le k (E.get f.post k) (E.get e.pre k)) Or.inl
  have hsymm : Std.Symm fun e f : Entry E => (∀ k, O.le k (E.get e.post k) (E.get f.pre k)) ∨
      ∀ k, O.le k (E.get f.post k) (E.get e.pre k) := ⟨fun _ _ => Or.symm⟩
  exact hpair.forall he hf hne

end Engine.Order

/-! ## Reads -/

/-- The statement only reads. -/
def Engine.reads (E : Engine) (q : E.S) : Bool := match E.sem q with
  | .query _ => true
  | _ => false

/-- The transaction this history is in has not written anything yet. -/
def Engine.clean (E : Engine) (tr : E.History) : Bool :=
  tr.foldl (fun b ev => match ev.1 with
    | .sql q => b && E.reads q
    | .ext _ => b
    | _ => true) true

@[simp] theorem Engine.clean_append {tr : E.History} {ev : Event E.Cmd E.Resp} :
    E.clean (tr ++ [ev]) = match ev.1 with
      | .sql q => E.clean tr && E.reads q
      | .ext _ => E.clean tr
      | _ => true := by
  simp [Engine.clean]

theorem Engine.clean_append_sql {tr : E.History} {q : E.S} {r : E.Resp (.sql q)} :
    E.clean (tr ++ [⟨.sql q, r⟩]) = (E.clean tr && E.reads q) := Engine.clean_append

theorem Engine.clean_append_ext {tr : E.History} {x : E.X} {r : E.Resp (.ext x)} :
    E.clean (tr ++ [⟨.ext x, r⟩]) = E.clean tr := Engine.clean_append

theorem Engine.query_of_reads {q : E.S} (h : E.reads q = true) :
    ∃ read, E.sem q = .query read := by
  unfold Engine.reads at h
  split at h
  · exact ⟨_, ‹_›⟩
  · cases h

/-- A transaction that has issued no write holds no row. -/
def Session.CleanOk (s : Session E) : Prop :=
  E.clean s.trace = true → s.pending = none → s.writes = []

section

variable {d : E.D} {others : List E.W} {o : E.O} {s s' : Session E} {d' : Option E.D}

theorem Session.PendingOk.none_of_reads (h : s.PendingOk) {q : E.S}
    {k : E.Resp (.sql q) → Prog E.Cmd E.Resp E.A} (hp : s.prog = .exec (.sql q) k)
    (hq : E.reads q = true) : s.pending = none := by
  obtain ⟨read, hq⟩ := Engine.query_of_reads hq
  cases hpe : s.pending with
  | none => rfl
  | some p =>
    obtain ⟨q', k', _, _, _, h₁, h₂, _⟩ := h p hpe
    rw [hp] at h₁
    cases h₁
    rw [hq] at h₂
    cases h₂

theorem Session.PendingOk.none_of_ext (h : s.PendingOk) {x : E.X}
    {k : E.Resp (.ext x) → Prog E.Cmd E.Resp E.A} (hp : s.prog = .exec (.ext x) k) :
    s.pending = none := by
  cases hpe : s.pending with
  | none => rfl
  | some p =>
    obtain ⟨q', k', _, _, _, h₁, _⟩ := h p hpe
    rw [hp] at h₁
    cases h₁

theorem Move.cleanOk (h : Move d others o s s' d') (hp : s.PendingOk) (hs : s.CleanOk) :
    s'.CleanOk := by
  intro hc hpe'
  cases h with
  | begin hp ht => rfl
  | commit hp ht hf => rfl
  | abandon hp ht hf => rfl
  | rollback hp => rfl
  | ext hprog =>
    simp only [Session.answered, Engine.clean_append] at hc
    exact hs hc (hp.none_of_ext hprog)
  | barred hprog ht hf =>
    simp only [Session.answered, Engine.clean_append, Bool.and_eq_true] at hc
    exact hs hc.1 (hp.none_of_reads hprog hc.2)
  | query hprog ht hf hq hr =>
    simp only [Session.answered, Engine.clean_append, Bool.and_eq_true] at hc
    exact hs hc.1 (hp.none_of_reads hprog hc.2)
  | refused hp ht hf hr => exact Session.writes_undone
  | insert hp ht hf hq hr hu hcl =>
    simp [Session.answered, Session.wrote, Engine.reads, hq] at hc
  | snapshot hp ht hf hq hpe => cases hpe'
  | skip hp ht hf hq hpe hto hl ha => cases hpe'
  | write hp ht hf hq hpe hto hl ha => cases hpe'
  | finish hp ht hf hq hpe hto =>
    simp [Session.answered, Engine.reads, hq] at hc

end

namespace Reachable

variable {i : Nat} {s : Session E}

theorem cleanOk (h : Reachable C (.init d₀) w) (hs : w.sessions[i]? = some s) :
    s.CleanOk := by
  refine h.session_rule (P := fun _ _ _ s => s.CleanOk) ?_ ?_ ?_ ?_ i s hs
  · intro w c _ _ _ _
    rfl
  · intro w i o s s' d' hw _ hall hs hm
    exact hm.cleanOk (hw.pendingOk hs) (hall i s hs)
  · intro w i s s' _ _ _ hb _ _
    exact hb.writes
  · intro w i j o s s' t d' _ _ hall _ _ ht _
    exact hall j t ht

/-- A transaction that has issued no write, at a command that is none, sees what is committed. -/
theorem view_of_clean (h : Reachable C (.init d₀) w) (hs : w.sessions[i]? = some s)
    (hc : E.clean s.trace = true) {q : E.S} {k : E.Resp (.sql q) → Prog E.Cmd E.Resp E.A}
    (hp : s.prog = .exec (.sql q) k) (hq : E.reads q = true) : s.view w.db = w.db :=
  Session.view_of_writes_nil (h.cleanOk hs hc ((h.pendingOk hs).none_of_reads hp hq))

end Reachable

/-- Before it had written anything, the transaction was answered `r` to `q`. -/
def Engine.Seen (tr : E.History) (q : E.S) (r : E.RS q) : Prop :=
  ∃ pre, pre ++ [⟨.sql q, .ok r⟩] <+: tr ∧ E.clean pre = true

section

variable {tr : E.History} {q : E.S} {r : E.RS q}

theorem Engine.Seen.append (h : E.Seen tr q r) (evs : E.History) : E.Seen (tr ++ evs) q r := by
  obtain ⟨pre, hpre, hc⟩ := h
  exact ⟨pre, hpre.trans (List.prefix_append _ _), hc⟩

theorem Engine.seen_append {ev : Event E.Cmd E.Resp} :
    E.Seen (tr ++ [ev]) q r ↔ E.Seen tr q r ∨ (ev = ⟨.sql q, .ok r⟩ ∧ E.clean tr = true) := by
  constructor
  · rintro ⟨pre, hpre, hc⟩
    rcases List.prefix_concat_iff.mp hpre with hev | hpre
    · obtain ⟨rfl, hlast⟩ := List.append_singleton_inj.mp hev
      exact Or.inr ⟨hlast.symm, hc⟩
    · exact Or.inl ⟨pre, hpre, hc⟩
  · rintro (h | ⟨rfl, hc⟩)
    · exact h.append _
    · exact ⟨tr, List.prefix_rfl, hc⟩

theorem Engine.not_seen_nil : ¬ E.Seen [] q r := by
  rintro ⟨pre, hpre, _⟩
  simp at hpre

theorem Engine.Seen.mem (h : E.Seen tr q r) : (⟨.sql q, .ok r⟩ : Event E.Cmd E.Resp) ∈ tr := by
  obtain ⟨pre, hpre, _⟩ := h
  exact hpre.subset (by simp)

end

theorem Broken.seen {s s' : Session E} (h : Broken s s') {q : E.S} {r : E.RS q}
    (hr : E.Seen s'.trace q r) : E.Seen s.trace q r := by
  cases h <;> rcases Engine.seen_append.mp hr with hr | ⟨hev, _⟩ <;> first
    | exact hr
    | cases hev

/-- A move that answers a query with data changes nothing else. -/
theorem Move.of_answer {d : E.D} {others : List E.W} {o : E.O} {s s' : Session E} {d' : Option E.D}
    (h : Move d others o s s' d') {q : E.S} {r : E.RS q}
    {read : E.D → E.O → E.O → Except E.ε (E.RS q)} (hq : E.sem q = .query read)
    (ht : s'.trace = s.trace ++ [⟨.sql q, .ok r⟩]) : d' = none ∧ s'.writes = s.writes ∧
      s'.txn = s.txn ∧ ∃ c o, read (s.view d) c o = .ok r := by
  cases h with
  | query hp₁ ht₁ hf₁ hq₁ hr₁ =>
    cases (List.append_singleton_inj.mp ht).2
    rw [hq] at hq₁
    cases hq₁
    exact ⟨rfl, rfl, rfl, _, _, hr₁⟩
  | insert hp₁ ht₁ hf₁ hq₁ hr₁ hu hcl =>
    cases (List.append_singleton_inj.mp ht).2
    rw [hq] at hq₁
    cases hq₁
  | finish hp₁ ht₁ hf₁ hq₁ hpe₁ hto =>
    cases (List.append_singleton_inj.mp ht).2
    rw [hq] at hq₁
    cases hq₁
  | snapshot => simp at ht
  | skip => simp at ht
  | write => simp [Session.wrote] at ht
  | _ => cases (List.append_singleton_inj.mp ht).2

/-- What is answered from outside. -/
theorem Move.told_ext {d : E.D} {others : List E.W} {o : E.O} {s s' : Session E} {d' : Option E.D}
    (h : Move d others o s s' d') {x : E.X} {k : E.RX x → Prog E.Cmd E.Resp E.A}
    (hp : s.prog = .exec (.ext x) k) : s'.trace = s.trace ++ [⟨.ext x, E.answer o x⟩] := by
  cases h with
  | ext hp' =>
    cases hp.symm.trans hp'
    rfl
  | begin hp' | commit hp' | abandon hp' | rollback hp' | barred hp' | query hp' | refused hp'
  | insert hp' | snapshot hp' | skip hp' | write hp' | finish hp' => cases hp.symm.trans hp'

namespace Reachable

variable {i : Nat} {s : Session E}

/-- What a session newly sees is what is committed now. -/
theorem seen_now (h : Reachable C (.init d₀) w) (hs : w.sessions[i]? = some s) {o : E.O}
    {s' : Session E} {d' : Option E.D} (hm : Move w.db (w.others i) o s s' d') {q : E.S}
    {r : E.RS q} {read : E.D → E.O → E.O → Except E.ε (E.RS q)} (hq : E.sem q = .query read)
    (hr : E.Seen s'.trace q r) : E.Seen s.trace q r ∨
      (s.view w.db = w.db ∧ d' = none ∧ s'.writes = s.writes ∧ s'.txn = s.txn ∧
        ∃ c o, read w.db c o = .ok r) := by
  cases hm.told with
  | wait hp ht hcall => exact Or.inl (ht ▸ hr)
  | answer r' hp ha hp' ht hcall hpe =>
    rw [ht] at hr
    rcases Engine.seen_append.mp hr with hr | ⟨hev, hc⟩
    · exact Or.inl hr
    · cases hev
      have hreads : E.reads q = true := by simp [Engine.reads, hq]
      have hview := h.view_of_clean hs hc hp hreads
      obtain ⟨hd, hwr, htx, c, o, hread⟩ := hm.of_answer hq ht
      rw [hview] at hread
      exact Or.inr ⟨hview, hd, hwr, htx, c, o, hread⟩

/-- **Only committed states are seen.** -/
theorem read_committed (h : Reachable C (.init d₀) w) (hs : w.sessions[i]? = some s) {q : E.S}
    {r : E.RS q} {read : E.D → E.O → E.O → Except E.ε (E.RS q)} (hq : E.sem q = .query read)
    (hr : E.Seen s.trace q r) : ∃ d ∈ history d₀ w.log, ∃ c o, read d c o = .ok r := by
  refine h.session_rule (P := fun _ log _ s => ∀ (q : E.S) (r : E.RS q) read,
    E.sem q = .query read → E.Seen s.trace q r →
    ∃ d ∈ history d₀ log, ∃ c o, read d c o = .ok r) ?_ ?_ ?_ ?_ i s hs q r read hq hr
  · intro w c _ _ q r read _ hr
    exact absurd hr Engine.not_seen_nil
  · intro w i o s s' d' hw _ hall hs hm q r read hq hr
    rcases hw.seen_now hs hm hq hr with hr | ⟨_, rfl, _, _, c, o, hr⟩
    · obtain ⟨d, hd, hr⟩ := hall i s hs q r read hq hr
      refine ⟨d, ?_, hr⟩
      cases d' with
      | none => simpa [World.moved] using hd
      | some d' =>
        simp only [World.moved, Option.map_some, Option.toList_some, history_append]
        exact List.mem_append_left _ hd
    · refine ⟨w.db, ?_, c, o, hr⟩
      simpa [World.moved] using hw.db_mem_history
  · intro w i s s' _ hs hP hb q r read hq hr
    exact hP q r read hq (hb.seen hr)
  · intro w i j o s s' t d' _ _ hall _ _ ht _ q r read hq hr
    obtain ⟨d, hd, hr⟩ := hall j t ht q r read hq hr
    refine ⟨d, ?_, hr⟩
    rw [history_append]
    exact List.mem_append_left _ hd

end Reachable

/-! ## The open transaction -/

/-- What was issued in the transaction this history is in, calls to the outside left out. -/
def Engine.current (E : Engine) (tr : E.History) : E.History :=
  tr.foldl (fun evs ev => match ev.1 with
    | .sql _ => evs ++ [ev]
    | .ext _ => evs
    | _ => []) []

section

variable {tr : E.History} {q : E.S} {x : E.X}

@[simp] theorem Engine.current_sql {r : E.Resp (.sql q)} :
    E.current (tr ++ [⟨.sql q, r⟩]) = E.current tr ++ [⟨.sql q, r⟩] := by
  simp [Engine.current]

@[simp] theorem Engine.current_ext {r : E.Resp (.ext x)} :
    E.current (tr ++ [⟨.ext x, r⟩]) = E.current tr := by
  simp [Engine.current]

@[simp] theorem Engine.current_begin {r : E.Resp .begin} :
    E.current (tr ++ [⟨.begin, r⟩]) = [] := by
  simp [Engine.current]

@[simp] theorem Engine.current_commit {r : E.Resp .commit} :
    E.current (tr ++ [⟨.commit, r⟩]) = [] := by
  simp [Engine.current]

@[simp] theorem Engine.current_rollback {r : E.Resp .rollback} :
    E.current (tr ++ [⟨.rollback, r⟩]) = [] := by
  simp [Engine.current]

theorem Engine.current_subset : E.current tr ⊆ tr := by
  induction tr using List.reverseRecOn with
  | nil => exact fun _ h => h
  | append_singleton tr ev ih =>
    obtain ⟨c, r⟩ := ev
    intro x hx
    cases c with
    | sql q =>
      rw [Engine.current_sql] at hx
      rcases List.mem_append.mp hx with hx | hx
      · exact List.mem_append_left _ (ih hx)
      · exact List.mem_append_right _ hx
    | ext y =>
      rw [Engine.current_ext] at hx
      exact List.mem_append_left _ (ih hx)
    | begin =>
      rw [Engine.current_begin] at hx
      exact absurd hx List.not_mem_nil
    | commit =>
      rw [Engine.current_commit] at hx
      exact absurd hx List.not_mem_nil
    | rollback =>
      rw [Engine.current_rollback] at hx
      exact absurd hx List.not_mem_nil

/-- A transaction that has issued nothing but reads has not written. -/
theorem Engine.clean_of_current (h : ∀ ev ∈ E.current tr, ∃ q, ev.1 = .sql q ∧ E.reads q = true) :
    E.clean tr = true := by
  induction tr using List.reverseRecOn with
  | nil => rfl
  | append_singleton tr ev ih =>
    obtain ⟨c, r⟩ := ev
    cases c with
    | sql q =>
      rw [Engine.current_sql] at h
      obtain ⟨q', hq', hreads⟩ := h ⟨.sql q, r⟩ (List.mem_append_right _ (List.mem_singleton_self _))
      cases hq'
      rw [Engine.clean_append_sql, ih fun ev hev => h ev (List.mem_append_left _ hev), hreads]
      rfl
    | ext y =>
      rw [Engine.current_ext] at h
      rw [Engine.clean_append_ext]
      exact ih h
    | begin => exact Engine.clean_append
    | commit => exact Engine.clean_append
    | rollback => exact Engine.clean_append

end

/-- What is left of a failed transaction has written nothing. -/
def Session.UndoneOk (s : Session E) : Prop := ∀ t, s.txn = some t → t.failed = true → s.writes = []

theorem Move.undoneOk {d : E.D} {others : List E.W} {o : E.O} {s s' : Session E} {d' : Option E.D}
    (h : Move d others o s s' d') (hs : s.UndoneOk) : s'.UndoneOk := by
  intro t' ht' hf'
  cases h with
  | begin hp ht =>
    cases ht'
    cases hf'
  | commit hp ht hf => cases ht'
  | abandon hp ht hf => cases ht'
  | rollback hp => cases ht'
  | ext hp => exact hs t' ht' hf'
  | barred hp ht hf => exact hs t' ht' hf'
  | query hp ht hf hq hr => exact hs t' ht' hf'
  | refused hp ht hf hr => exact Session.writes_undone
  | insert hp ht hf hq hr hu hc =>
    cases (Session.txn_wrote ht).symm.trans ht'
    exact nomatch hf.symm.trans hf'
  | snapshot hp ht hf hq hpe => exact hs t' ht' hf'
  | skip hp ht hf hq hpe hto hl ha => exact hs t' ht' hf'
  | write hp ht hf hq hpe hto hl ha =>
    cases (Session.txn_wrote ht).symm.trans ht'
    exact nomatch hf.symm.trans hf'
  | finish hp ht hf hq hpe hto => exact hs t' ht' hf'

theorem Reachable.undoneOk {i : Nat} {s : Session E} (h : Reachable C (.init d₀) w)
    (hs : w.sessions[i]? = some s) : s.UndoneOk := by
  refine h.session_rule (P := fun _ _ _ s => s.UndoneOk) ?_ ?_ ?_ ?_ i s hs
  · intro w c _ _ t ht
    cases ht
  · intro w i o s s' d' _ _ hall hs hm
    exact hm.undoneOk (hall i s hs)
  · intro w i s s' _ _ _ hb _ _ _
    exact hb.writes
  · intro w i j o s s' t d' _ _ hall _ _ ht _
    exact hall j t ht

/-- A transaction has failed only if one of its statements was answered with an error. -/
def Session.FailedOk (s : Session E) : Prop := ∀ t, s.txn = some t → t.failed = true →
  ∃ q e, (⟨.sql q, .error e⟩ : Event E.Cmd E.Resp) ∈ E.current s.trace

section

variable {d : E.D} {others : List E.W} {o : E.O} {s s' : Session E} {d' : Option E.D}

theorem Session.failedOk_of_closed (h : s.txn = none) : s.FailedOk := by
  intro t ht
  rw [h] at ht
  cases ht

theorem Session.FailedOk.sql (hs : s.FailedOk) (ht : s'.txn = s.txn) {q : E.S}
    {r : E.Resp (.sql q)} (htr : s'.trace = s.trace ++ [⟨.sql q, r⟩]) : s'.FailedOk := by
  intro t ht' hf
  obtain ⟨q', e, he⟩ := hs t (ht ▸ ht') hf
  rw [htr, Engine.current_sql]
  exact ⟨q', e, List.mem_append_left _ he⟩

theorem Session.FailedOk.wait (hs : s.FailedOk) (htr : s'.trace = s.trace)
    (ht : ∀ t', s'.txn = some t' → ∃ t, s.txn = some t ∧ t.failed = t'.failed) : s'.FailedOk := by
  intro t ht' hf
  obtain ⟨t₀, ht₀, hf₀⟩ := ht t ht'
  rw [htr]
  exact hs t₀ ht₀ (hf₀.trans hf)

theorem Session.failedOk_of_error {q : E.S} {e : E.ε}
    (htr : s'.trace = s.trace ++ [⟨.sql q, .error e⟩]) : s'.FailedOk := by
  intro _ _ _
  rw [htr, Engine.current_sql]
  exact ⟨q, e, by simp⟩

theorem Move.failedOk (h : Move d others o s s' d') (hs : s.FailedOk) : s'.FailedOk := by
  cases h with
  | begin hp ht =>
    intro t ht' hf
    cases ht'
    cases hf
  | commit hp ht hf => exact Session.failedOk_of_closed rfl
  | abandon hp ht hf => exact Session.failedOk_of_closed rfl
  | rollback hp => exact Session.failedOk_of_closed rfl
  | ext hp =>
    intro t ht hf
    simp only [Session.answered, Engine.current_ext]
    exact hs t ht hf
  | barred hp ht hf => exact hs.sql rfl rfl
  | query hp ht hf hq hr => exact hs.sql rfl rfl
  | refused hp ht hf hr => exact Session.failedOk_of_error rfl
  | @insert q k t row resp w hp ht hf hq hr hu hcl =>
    intro t' ht' hf'
    simp only [Session.answered, Session.wrote, ht, Option.map_some, Option.some.injEq] at ht'
    subst ht'
    rw [hf] at hf'
    cases hf'
  | snapshot hp ht hf hq hpe => exact hs.wait rfl fun t ht => ⟨t, ht, rfl⟩
  | skip hp ht hf hq hpe hto hl ha => exact hs.wait rfl fun t ht => ⟨t, ht, rfl⟩
  | write hp ht hf hq hpe hto hl ha =>
    refine hs.wait rfl fun t' ht' => ⟨_, ht, ?_⟩
    simp only [Session.wrote, ht, Option.map_some, Option.some.injEq] at ht'
    rw [← ht']
  | finish hp ht hf hq hpe hto => exact hs.sql rfl rfl

theorem Broken.failedOk (h : Broken s s') : s'.FailedOk := by
  cases h with
  | sql e hp => exact Session.failedOk_of_error rfl
  | begin e hp => exact Session.failedOk_of_closed rfl
  | commit e hp => exact Session.failedOk_of_closed rfl
  | rollback e hp => exact Session.failedOk_of_closed rfl

end

theorem Reachable.failedOk {i : Nat} {s : Session E} (h : Reachable C (.init d₀) w)
    (hs : w.sessions[i]? = some s) : s.FailedOk := by
  refine h.session_rule (P := fun _ _ _ s => s.FailedOk) ?_ ?_ ?_ ?_ i s hs
  · intro w c _ _
    exact Session.failedOk_of_closed rfl
  · intro w i o s s' d' _ _ hall hs hm
    exact hm.failedOk (hall i s hs)
  · intro w i s s' _ _ _ hb
    exact hb.failedOk
  · intro w i j o s s' t d' _ _ hall _ _ ht _
    exact hall j t ht

end ReadCommitted
