import Mathlib.Data.List.Induction
import ExpenseSaas.ReadCommitted.Moves

/-!
# Row locks

A row is locked by having an uncommitted version. Two facts make that a lock:

* no two open transactions hold a version of the same row (`locks_disjoint`);
* so what another session commits leaves the rows a session holds as they were
  (`get_publish_of_holds`), and the rows it does not hold look to it exactly as
  they are committed (`get_view_of_free`).

`Relates` is the guarantee in the form the proofs above use it: a relation
between the committed row and the session's own version of it, kept by the
session's own writes, is kept by everything else.
-/

namespace ReadCommitted

variable {E : Engine} {d : E.D} {s t : Session E} {k : E.K}

/-! ## Views -/

theorem Engine.putAll_append (d : E.D) (ws : List E.W) (w : E.W) :
    E.putAll d (ws ++ [w]) = E.put (E.putAll d ws) w := by
  simp [Engine.putAll]

theorem Engine.get_putAll_of_free {ws : List E.W} (h : ∀ w ∈ ws, E.lock w ≠ k) :
    E.get (E.putAll d ws) k = E.get d k := by
  induction ws using List.reverseRecOn with
  | nil => rfl
  | append_singleton ws w ih =>
    rw [Engine.putAll_append, E.get_put, if_neg (h w (by simp))]
    exact ih fun v hv => h v (by simp [hv])

/-- What a list of versions leaves under a key it has does not depend on what was there. -/
theorem Engine.get_putAll_of_holds {ws : List E.W} (h : ∃ w ∈ ws, E.lock w = k) :
    ∃ w ∈ ws, E.lock w = k ∧ ∀ d, E.get (E.putAll d ws) k = some w := by
  induction ws using List.reverseRecOn with
  | nil =>
    obtain ⟨w, hw, _⟩ := h
    exact absurd hw (by simp)
  | append_singleton ws w ih =>
    by_cases hk : E.lock w = k
    · refine ⟨w, by simp, hk, fun d => ?_⟩
      rw [Engine.putAll_append, E.get_put, if_pos hk]
    · obtain ⟨v, hv, hvk⟩ := h
      have hv' : v ∈ ws := by
        rcases List.mem_append.mp hv with hv | hv
        · exact hv
        · rw [List.mem_singleton.mp hv] at hvk
          exact absurd hvk hk
      obtain ⟨u, hu, huk, hget⟩ := ih ⟨v, hv', hvk⟩
      refine ⟨u, by simp [hu], huk, fun d => ?_⟩
      rw [Engine.putAll_append, E.get_put, if_neg hk]
      exact hget d

namespace Session

/-- The session has an uncommitted version of row `k`. -/
def Holds (s : Session E) (k : E.K) : Prop := ∃ w ∈ s.writes, E.lock w = k

instance : Decidable (s.Holds k) := inferInstanceAs (Decidable (∃ w ∈ s.writes, E.lock w = k))

theorem holds_of_mem {w : E.W} (h : w ∈ s.writes) : s.Holds (E.lock w) := ⟨w, h, rfl⟩

theorem get_view_of_free (h : ¬ s.Holds k) : E.get (s.view d) k = E.get d k :=
  Engine.get_putAll_of_free fun w hw hk => h ⟨w, hw, hk⟩

theorem get_view_of_holds (h : s.Holds k) :
    ∃ w ∈ s.writes, E.lock w = k ∧ ∀ d, E.get (s.view d) k = some w :=
  Engine.get_putAll_of_holds h

theorem view_of_writes_nil (h : s.writes = []) : s.view d = d := by
  unfold view
  rw [h]
  rfl

theorem view_congr (h : s.writes = t.writes) : s.view d = t.view d := by
  unfold view
  rw [h]

theorem view_of_wrote {s' : Session E} {w : E.W} (h : s'.writes = s.writes ++ [w]) :
    s'.view d = E.put (s.view d) w := by
  unfold view
  rw [h, Engine.putAll_append]

/-- Two sessions hold no row in common. -/
def Apart (s t : Session E) : Prop := ∀ k, s.Holds k → ¬ t.Holds k

theorem Apart.symm (h : Apart s t) : Apart t s := fun k ht hs => h k hs ht

/-- What a session commits leaves the rows another one holds as they were. -/
theorem get_publish_of_holds (h : Apart s t) (ht : t.Holds k) :
    E.get (s.view d) k = E.get d k := get_view_of_free fun hs => h k hs ht

/-- After another session's commit, `t` sees either what it saw before or what was committed. -/
theorem get_view_publish :
    E.get (t.view (s.view d)) k = if t.Holds k then E.get (t.view d) k
      else E.get (s.view d) k := by
  by_cases ht : t.Holds k
  · obtain ⟨w, _, _, hget⟩ := get_view_of_holds ht
    rw [if_pos ht, hget, hget]
  · rw [if_neg ht, get_view_of_free ht]

/-! ## Relations between a row and a session's version of it -/

/-- Every row the session sees is related to the committed one. -/
def Relates (R : E.K → Option E.W → Option E.W → Prop) (d : E.D) (s : Session E) : Prop :=
  ∀ k, R k (E.get d k) (E.get (s.view d) k)

variable {R : E.K → Option E.W → Option E.W → Prop}

theorem relates_of_writes_nil (hrefl : ∀ k r, R k r r) (h : s.writes = []) : Relates R d s := by
  intro k
  rw [view_of_writes_nil h]
  exact hrefl k _

/-- Another session's commit keeps the relation. -/
theorem Relates.publish (hrefl : ∀ k r, R k r r) (ha : Apart s t) (h : Relates R d t) :
    Relates R (s.view d) t := by
  intro k
  rw [get_view_publish]
  by_cases ht : t.Holds k
  · rw [if_pos ht, get_publish_of_holds ha ht]
    exact h k
  · rw [if_neg ht]
    exact hrefl k _

/-- A write keeps the relation when it does so at the row it writes. -/
theorem Relates.wrote {s' : Session E} {w : E.W} (h : Relates R d s)
    (hs' : s'.writes = s.writes ++ [w]) (hw : R (E.lock w) (E.get d (E.lock w)) (some w)) :
    Relates R d s' := by
  intro k
  rw [view_of_wrote hs', E.get_put]
  by_cases hk : E.lock w = k
  · subst hk
    rw [if_pos rfl]
    exact hw
  · rw [if_neg hk]
    exact h k

end Session

/-! ## The lock discipline -/

namespace World

variable {w w' : World E}

theorem mem_others {i : Nat} {v : E.W} :
    v ∈ w.others i ↔ ∃ j t, j ≠ i ∧ w.sessions[j]? = some t ∧ v ∈ t.writes := by
  unfold others
  rw [List.mem_flatMap]
  constructor
  · rintro ⟨t, ht, hv⟩
    obtain ⟨j, hj, hjt⟩ := List.mem_eraseIdx_iff_getElem?.mp ht
    exact ⟨j, t, hj, hjt, hv⟩
  · rintro ⟨j, t, hj, hjt, hv⟩
    exact ⟨t, List.mem_eraseIdx_iff_getElem?.mpr ⟨j, hj, hjt⟩, hv⟩

/-- A session that has returned stays as it is. -/
theorem returned_stays {i : Nat} {s : Session E} {r : E.A} {a : Action E}
    (hs : w.sessions[i]? = some s) (hp : s.prog = .ret r) (hstep : w.step a = some w') :
    w'.sessions[i]? = some s := by
  have hne : ∀ {j : Nat} {t : Session E}, w.sessions[j]? = some t →
      (∃ c k, t.prog = .exec c k) → j ≠ i := by
    rintro j t ht ⟨c, k, hrun⟩ rfl
    cases hs.symm.trans ht
    rw [hp] at hrun
    cases hrun
  cases step_cases hstep with
  | start c => exact (List.getElem?_append_left (List.getElem?_eq_some_iff.mp hs).1).trans hs
  | move ht hm => exact (List.getElem?_set_ne (hne ht hm.running)).trans hs
  | broke ha ht hb => exact (List.getElem?_set_ne (hne ht hb.running)).trans hs

/-- No two sessions hold a row in common. -/
def LocksDisjoint (w : World E) : Prop :=
  ∀ (i j : Nat) (s t : Session E), i ≠ j → w.sessions[i]? = some s → w.sessions[j]? = some t → s.Apart t

private theorem locksDisjoint_set {i : Nat} {s s' : Session E} {w' : World E}
    (h : w.LocksDisjoint) (hs : w.sessions[i]? = some s)
    (hw' : w'.sessions = w.sessions.set i s')
    (hap : ∀ j t, j ≠ i → w.sessions[j]? = some t → s'.Apart t) : w'.LocksDisjoint := by
  intro a b x y hab hx hy
  rw [hw'] at hx hy
  rcases List.getElem?_of_set hx with ⟨rfl, rfl⟩ | ⟨hai, hx'⟩ <;>
    rcases List.getElem?_of_set hy with ⟨rfl, rfl⟩ | ⟨hbi, hy'⟩
  · exact absurd rfl hab
  · exact hap b y hbi hy'
  · exact (hap a x hai hx').symm
  · exact h a b x y hab hx' hy'

theorem locksDisjoint_step {a : Action E} (h : w.LocksDisjoint) (hstep : w.step a = some w') :
    w'.LocksDisjoint := by
  cases step_cases hstep with
  | start c =>
    intro a b x y hab hx hy
    rcases List.getElem?_of_concat hx with ⟨_, rfl⟩ | hx' <;>
      rcases List.getElem?_of_concat hy with ⟨_, rfl⟩ | hy'
    · omega
    · rintro k ⟨w, hw, _⟩
      exact absurd hw (by simp [Session.new, Session.writes])
    · rintro k _ ⟨w, hw, _⟩
      exact absurd hw (by simp [Session.new, Session.writes])
    · exact h a b x y hab hx' hy'
  | move hs hm =>
    rename_i i o s s' d'
    refine locksDisjoint_set h hs rfl (fun j t hj ht => ?_)
    cases hm.effect with
    | quiet hw => exact fun k ⟨v, hv, hk⟩ => h i j s t hj.symm hs ht k ⟨v, hw ▸ hv, hk⟩
    | undo hw => exact fun k ⟨v, hv, _⟩ => absurd hv (by simp [hw])
    | publish hp ht' hf hw => exact fun k ⟨v, hv, _⟩ => absurd hv (by simp [hw])
    | wrote v hwr hw =>
      rintro k ⟨u, hu, hk⟩ ⟨x, hx, hxk⟩
      rw [hw, List.mem_append, List.mem_singleton] at hu
      rcases hu with hu | rfl
      · exact h i j s t hj.symm hs ht k ⟨u, hu, hk⟩ ⟨x, hx, hxk⟩
      · exact hwr.free x (mem_others.mpr ⟨j, t, hj, ht, hx⟩) (hxk.trans hk.symm)
  | broke ha hs hb =>
    refine locksDisjoint_set h hs rfl (fun j t hj ht => ?_)
    exact fun k ⟨v, hv, _⟩ => absurd hv (by simp [hb.writes])

/-- **No two open transactions ever hold the same row.** -/
theorem locks_disjoint {C : World E → Action E → Prop} {w : World E}
    (h : Reachable C (.init d) w) : w.LocksDisjoint := by
  refine h.invariant (I := LocksDisjoint) ?_ (fun w w' a _ hw _ hstep => ?_)
  · intro i j s t _ hs
    exact absurd hs (by simp [init])
  · exact locksDisjoint_step hw hstep

end World

end ReadCommitted
