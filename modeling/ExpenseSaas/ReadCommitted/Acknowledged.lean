import ExpenseSaas.ReadCommitted.History

/-!
# Acknowledged updates

A statement on a bare connection is a transaction of its own, and its client
goes on once the commit has been acknowledged. `Acknowledged` reads that off the
client's history, and `Reachable.marked_of_acknowledged` says what it is worth:
an update that leaves a mark on a row whenever the row is there has left it in
the committed state, and no other client takes it away again.

An update takes several steps, and other sessions move between them. What
carries the mark from the update's snapshot to the commit is `Session.Marking`.
-/

namespace ReadCommitted

variable {E : Engine}

/-- The statement was a transaction of its own, and its commit was acknowledged. -/
def Engine.Acknowledged (tr : E.History) (q : E.S) : Prop :=
  ∃ pre r b, pre ++ [⟨.commit, .ok b⟩] <+: tr ∧ E.current pre = [⟨.sql q, .ok r⟩]

/-- The statement went through in a transaction whose commit did. -/
def Engine.Confirmed (tr : E.History) (q : E.S) : Prop :=
  ∃ pre r, pre ++ [⟨.commit, .ok true⟩] <+: tr ∧
    (⟨.sql q, .ok r⟩ : Event E.Cmd E.Resp) ∈ E.current pre

/-- Row `k` is there, in a version that has `G`. -/
def Engine.Marked (G : E.W → Prop) (d : E.D) (k : E.K) : Prop := ∃ v, E.get d k = some v ∧ G v

/-- A row `k` that is there stays there, and once it has `G` it keeps it. -/
structure Engine.Order.Keeps (O : E.Order) (k : E.K) (G : E.W → Prop) : Prop where
  present : ∀ v b, O.le k (some v) b → b.isSome
  marked : ∀ v v', O.le k (some v) (some v') → G v → G v'

/-- The update `q` visits row `k` whenever it is there, and leaves it with `G`. -/
structure Engine.Marks (q : E.S) (k : E.K) (G : E.W → Prop) (targets : E.D → List E.K)
    (apply : E.D → E.D → E.O → E.K → Option (Except E.ε E.W)) (resp : List E.W → E.RS q) :
    Prop where
  sem : E.sem q = .update targets apply resp
  aims : ∀ d, (E.get d k).isSome → k ∈ targets d
  hits : ∀ snap cur o, (E.get cur k).isSome → apply snap cur o k ≠ none
  marks : ∀ snap cur o v, apply snap cur o k = some (.ok v) → G v

section

variable {tr : E.History} {q : E.S}

theorem Engine.acknowledged_append {ev : Event E.Cmd E.Resp} :
    E.Acknowledged (tr ++ [ev]) q ↔ E.Acknowledged tr q ∨
      ((∃ b, ev = ⟨.commit, .ok b⟩) ∧ ∃ r, E.current tr = [⟨.sql q, .ok r⟩]) := by
  constructor
  · rintro ⟨pre, r, b, hpre, hcur⟩
    rcases List.prefix_concat_iff.mp hpre with hev | hpre
    · obtain ⟨rfl, hlast⟩ := List.append_singleton_inj.mp hev
      exact Or.inr ⟨⟨b, hlast.symm⟩, r, hcur⟩
    · exact Or.inl ⟨pre, r, b, hpre, hcur⟩
  · rintro (⟨pre, r, b, hpre, hcur⟩ | ⟨⟨b, rfl⟩, r, hcur⟩)
    · exact ⟨pre, r, b, hpre.trans (List.prefix_append _ _), hcur⟩
    · exact ⟨tr, r, b, List.prefix_rfl, hcur⟩

theorem Engine.not_acknowledged_nil : ¬ E.Acknowledged [] q := by
  rintro ⟨pre, r, b, hpre, _⟩
  simp at hpre

theorem Engine.confirmed_append {ev : Event E.Cmd E.Resp} :
    E.Confirmed (tr ++ [ev]) q ↔ E.Confirmed tr q ∨
      (ev = ⟨.commit, .ok true⟩ ∧ ∃ r, (⟨.sql q, .ok r⟩ : Event E.Cmd E.Resp) ∈ E.current tr) := by
  constructor
  · rintro ⟨pre, r, hpre, hmem⟩
    rcases List.prefix_concat_iff.mp hpre with hev | hpre
    · obtain ⟨rfl, hlast⟩ := List.append_singleton_inj.mp hev
      exact Or.inr ⟨hlast.symm, r, hmem⟩
    · exact Or.inl ⟨pre, r, hpre, hmem⟩
  · rintro (⟨pre, r, hpre, hmem⟩ | ⟨rfl, r, hmem⟩)
    · exact ⟨pre, r, hpre.trans (List.prefix_append _ _), hmem⟩
    · exact ⟨tr, r, List.prefix_rfl, hmem⟩

theorem Engine.not_confirmed_nil : ¬ E.Confirmed [] q := by
  rintro ⟨pre, r, hpre, _⟩
  simp at hpre

/-- Without a commit that goes through nothing is confirmed. -/
theorem Told.confirmed {d : E.D} {s s' : Session E} (h : Told d s s')
    (hnone : s'.trace ≠ s.trace ++ [⟨.commit, .ok true⟩]) (hdone : E.Confirmed s'.trace q) :
    E.Confirmed s.trace q := by
  cases h with
  | wait hp htr hcall =>
    rw [htr] at hdone
    exact hdone
  | answer r hp ha hp' htr hcall hpe =>
    rw [htr] at hdone hnone
    rcases Engine.confirmed_append.mp hdone with hdone | ⟨hev, _⟩
    · exact hdone
    · rw [hev] at hnone
      exact absurd rfl hnone

theorem Move.confirmed_of_none {d : E.D} {others : List E.W} {o : E.O} {s s' : Session E}
    (h : Move d others o s s' none) (hdone : E.Confirmed s'.trace q) : E.Confirmed s.trace q :=
  h.told.confirmed h.not_committed hdone

theorem Broken.confirmed {s s' : Session E} (h : Broken s s') (d : E.D)
    (hdone : E.Confirmed s'.trace q) : E.Confirmed s.trace q :=
  (h.told (d := d)).confirmed h.not_committed hdone

end

variable {O : E.Order} {G : E.W → Prop} {key : E.K}

theorem Engine.Order.Keeps.le (hO : O.Keeps key G) {d d' : E.D}
    (hle : O.le key (E.get d key) (E.get d' key)) (h : E.Marked G d key) : E.Marked G d' key := by
  obtain ⟨v, hv, hG⟩ := h
  rw [hv] at hle
  obtain ⟨v', hv'⟩ := Option.isSome_iff_exists.mp (hO.present v _ hle)
  rw [hv'] at hle
  exact ⟨v', hv', hO.marked v v' hle hG⟩

/-! ## The mark on its way to the commit -/

/-- How far the update of a session has come: visiting rows, answered, or committed. -/
structure Session.Marking (q : E.S) (key : E.K) (G : E.W → Prop) (d : E.D) (s : Session E) :
    Prop where
  visiting : ∀ p k, s.pending = some p → s.prog = .exec (.sql q) k →
    key ∈ p.todo ∨ E.Marked G (s.view d) key
  answered : ∀ t r, s.txn = some t → t.failed = false →
    (⟨.sql q, .ok r⟩ : Event E.Cmd E.Resp) ∈ E.current s.trace → E.Marked G (s.view d) key
  acked : E.Acknowledged s.trace q → E.Marked G d key

/-- What is known of a session when it moves. -/
structure Session.Careful (O : E.Order) (q : E.S) (key : E.K) (d : E.D) (others : List E.W)
    (s : Session E) : Prop where
  present : ∀ k, s.prog = .exec (.sql q) k → (E.get (s.view d) key).isSome
  writes : ∀ q' t v, Writing d others s q' t v →
    O.le (E.lock v) (E.get (s.view d) (E.lock v)) (some v)
  relates : s.Relates O.le d
  failedOk : s.FailedOk

section

variable {d : E.D} {others : List E.W} {o : E.O} {s s' t : Session E} {d' : Option E.D} {q : E.S}

/-- A write of the session itself leaves a marked row marked. -/
theorem Session.Careful.wrote (hs : s.Careful O q key d others) (hO : O.Keeps key G) {q' : E.S}
    {x : Txn E} {v : E.W} (hv : Writing d others s q' x v) (hwr : s'.writes = s.writes ++ [v])
    (h : E.Marked G (s.view d) key) : E.Marked G (s'.view d) key := by
  refine hO.le (d := s.view d) ?_ h
  rw [Session.view_of_wrote hwr, E.get_put]
  by_cases hk : E.lock v = key
  · rw [if_pos hk, ← hk]
    exact hs.writes q' x v hv
  · rw [if_neg hk]
    exact O.refl _ _

/-- Nothing is asked of a session that has no open transaction but what was acknowledged. -/
theorem Session.Marking.of_closed (htx : s.txn = none) (hpe : s.pending = none)
    (h : E.Acknowledged s.trace q → E.Marked G d key) : s.Marking q key G d where
  visiting p k hp := by
    rw [hpe] at hp
    cases hp
  answered t r ht := by
    rw [htx] at ht
    cases ht
  acked := h

/-- A statement was answered, and it was not this one. -/
theorem Session.Marking.sql (h : s.Marking q key G d) {q' : E.S} {r' : E.Resp (.sql q')}
    (htr : s'.trace = s.trace ++ [⟨.sql q', r'⟩]) (hpe : s'.pending = none)
    (hview : ∀ t r, s'.txn = some t → t.failed = false →
      (⟨.sql q, .ok r⟩ : Event E.Cmd E.Resp) ∈ E.current s.trace ++ [⟨.sql q', r'⟩] →
      E.Marked G (s'.view d) key) : s'.Marking q key G d where
  visiting p k hp := by
    rw [hpe] at hp
    cases hp
  answered t r ht hf hmem := by
    rw [htr, Engine.current_sql] at hmem
    exact hview t r ht hf hmem
  acked hack := by
    rw [htr] at hack
    rcases Engine.acknowledged_append.mp hack with hack | ⟨⟨b, hev⟩, _⟩
    · exact h.acked hack
    · cases hev

/-- The statement goes on to its next row, or has just taken its snapshot. -/
theorem Session.Marking.wait (h : s.Marking q key G d) (htr : s'.trace = s.trace)
    (htx : ∀ t', s'.txn = some t' → ∃ t, s.txn = some t ∧ t.failed = t'.failed)
    (hkeep : E.Marked G (s.view d) key → E.Marked G (s'.view d) key)
    (hvisit : ∀ p k, s'.pending = some p → s'.prog = .exec (.sql q) k →
      key ∈ p.todo ∨ E.Marked G (s'.view d) key) : s'.Marking q key G d where
  visiting := hvisit
  answered t' r ht' hf hmem := by
    obtain ⟨t, ht, hft⟩ := htx t' ht'
    rw [htr] at hmem
    exact hkeep (h.answered t r ht (hft.trans hf) hmem)
  acked hack := by
    rw [htr] at hack
    exact h.acked hack

variable {targets : E.D → List E.K} {apply : E.D → E.D → E.O → E.K → Option (Except E.ε E.W)}
  {resp : List E.W → E.RS q}

/-- Its turn has come, or that of another row. -/
theorem Session.Marking.write {k : E.Resp (.sql q) → Prog E.Cmd E.Resp E.A} {t : Txn E} {p : Pending E}
    {visited : E.K} {rest : List E.K} {v : E.W} (hq : E.Marks q key G targets apply resp)
    (hp : s.prog = .exec (.sql q) k) (ht : s.txn = some t) (hpe : s.pending = some p)
    (hto : p.todo = visited :: rest) (ha : apply p.snap (s.view d) t.clock visited = some (.ok v))
    (hkeep : E.Marked G (s.view d) key → E.Marked G ((s.wrote v).view d) key)
    (h : s.Marking q key G d) : key ∈ rest ∨ E.Marked G ((s.wrote v).view d) key := by
  rcases h.visiting _ _ hpe hp with hmem | hmarked
  · rw [hto] at hmem
    rcases List.mem_cons.mp hmem with rfl | hmem
    · have hget : E.get ((s.wrote v).view d) key = some v := by
        rw [Session.view_of_wrote (Session.writes_wrote ht), E.get_put,
          if_pos (E.apply_lock _ _ _ _ hq.sem _ _ _ _ _ ha)]
      exact Or.inr ⟨v, hget, hq.marks _ _ _ v ha⟩
    · exact Or.inl hmem
  · exact Or.inr (hkeep hmarked)

/-- **One step.** -/
theorem Move.marking (hm : Move d others o s s' d') (hq : E.Marks q key G targets apply resp)
    (hO : O.Keeps key G) (hs : s.Careful O q key d others) (h : s.Marking q key G d) :
    s'.Marking q key G (d'.getD d) := by
  cases hm with
  | begin hp ht =>
    refine ⟨fun p k hpe => ?_, fun t r _ _ hmem => ?_, fun hack => ?_⟩
    · cases hpe
    · simp [Session.answered] at hmem
    · refine h.acked ?_
      simpa [Session.answered, Engine.acknowledged_append] using hack
  | @commit k t hp ht hf =>
    refine .of_closed rfl rfl fun hack => ?_
    rcases Engine.acknowledged_append.mp hack with hack | ⟨_, r, hcur⟩
    · exact hO.le (hs.relates key) (h.acked hack)
    · exact h.answered t r ht hf (by simp [hcur])
  | @abandon k t hp ht hf =>
    refine .of_closed rfl rfl fun hack => ?_
    rcases Engine.acknowledged_append.mp hack with hack | ⟨_, r, hcur⟩
    · exact h.acked hack
    · -- A transaction that has failed was told so, and this one was told of its update only.
      obtain ⟨q', e, he⟩ := hs.failedOk t ht hf
      rw [hcur, List.mem_singleton] at he
      cases he
  | rollback hp =>
    refine .of_closed rfl rfl fun hack => ?_
    rcases Engine.acknowledged_append.mp hack with hack | ⟨⟨b, hev⟩, _⟩
    · exact h.acked hack
    · cases hev
  | ext hp =>
    refine ⟨fun p k hpe => ?_, fun t r ht hf hmem => ?_, fun hack => ?_⟩
    · cases hpe
    · simp only [Session.answered, Engine.current_ext] at hmem
      exact h.answered t r ht hf hmem
    · simp only [Session.answered] at hack
      rcases Engine.acknowledged_append.mp hack with hack | ⟨⟨b, hev⟩, _⟩
      · exact h.acked hack
      · cases hev
  | barred hp ht hf =>
    refine h.sql rfl rfl fun t' r ht' hf' _ => ?_
    cases ht.symm.trans ht'
    cases hf.symm.trans hf'
  | query hp ht hf hq' hr =>
    refine h.sql rfl rfl fun t' r ht' hf' hmem => ?_
    rcases List.mem_append.mp hmem with hmem | hmem
    · exact h.answered t' r ht' hf' hmem
    · cases List.mem_singleton.mp hmem
      cases hq.sem.symm.trans hq'
  | refused hp ht hf hr =>
    refine h.sql rfl rfl fun t' r ht' hf' _ => ?_
    cases (Session.txn_undone ht).symm.trans ht'
    cases hf'
  | insert hp ht hf hq' hr hu hc =>
    refine h.sql rfl rfl fun t' r ht' hf' hmem => ?_
    rcases List.mem_append.mp hmem with hmem | hmem
    · exact hs.wrote hO (.of_insert hp ht hf hq' hr hu hc) (Session.writes_wrote ht)
        (h.answered _ r ht hf hmem)
    · cases List.mem_singleton.mp hmem
      cases hq.sem.symm.trans hq'
  | snapshot hp ht hf hq' hpe =>
    refine h.wait rfl (fun t ht => ⟨t, ht, rfl⟩) id fun p k hpe' hp' => Or.inl ?_
    cases hp.symm.trans hp'
    cases hq.sem.symm.trans hq'
    cases hpe'
    exact hq.aims _ (hs.present _ hp)
  | skip hp ht hf hq' hpe hto hl ha =>
    refine h.wait rfl (fun t ht => ⟨t, ht, rfl⟩) id fun p k hpe' hp' => ?_
    cases hp.symm.trans hp'
    cases hq.sem.symm.trans hq'
    cases hpe'
    refine (h.visiting _ _ hpe hp).imp_left fun hmem => ?_
    rw [hto] at hmem
    rcases List.mem_cons.mp hmem with rfl | hmem
    · exact absurd ha (hq.hits _ _ _ (hs.present _ hp))
    · exact hmem
  | @write q' k t _ _ _ p visited rest v hp ht hf hq' hpe hto hl ha =>
    have hwr := Session.writes_wrote (w := v) ht
    have hkeep : E.Marked G (s.view d) key → E.Marked G ((s.wrote v).view d) key :=
      hs.wrote hO (.of_update hp ht hf hq' hl ha) hwr
    refine h.wait rfl (fun t' ht' => ⟨t, ht, ?_⟩) hkeep fun p k hpe' hp' => ?_
    · cases (Session.txn_wrote ht).symm.trans ht'
      rfl
    · cases hp.symm.trans hp'
      cases hq.sem.symm.trans hq'
      cases hpe'
      exact h.write hq hp ht hpe hto ha hkeep
  | finish hp ht hf hq' hpe hto =>
    refine h.sql rfl rfl fun t' r ht' hf' hmem => ?_
    rcases List.mem_append.mp hmem with hmem | hmem
    · exact h.answered t' r ht' hf' hmem
    · cases List.mem_singleton.mp hmem
      have hvisit := h.visiting _ _ hpe hp
      rw [hto] at hvisit
      exact hvisit.resolve_left List.not_mem_nil

theorem Broken.marking (hb : Broken s s') (h : s.Marking q key G d) : s'.Marking q key G d := by
  cases hb with
  | sql e hp =>
    refine h.sql rfl rfl fun t' r ht' hf' _ => ?_
    cases ht : s.txn with
    | none =>
      simp only [Session.answered, Session.undone, ht, Option.map_none] at ht'
      cases ht'
    | some t =>
      cases (Session.txn_undone ht).symm.trans ht'
      cases hf'
  | begin e hp | commit e hp | rollback e hp =>
    refine .of_closed rfl rfl fun hack => ?_
    rcases Engine.acknowledged_append.mp hack with hack | ⟨⟨b, hev⟩, _⟩
    · exact h.acked hack
    · cases hev

/-- Another session's commit. -/
theorem Session.Marking.publish (h : t.Marking q key G d) (hO : O.Keeps key G)
    (hrel : s.Relates O.le d) : t.Marking q key G (s.view d) := by
  have hview : E.Marked G (t.view d) key → E.Marked G (t.view (s.view d)) key := by
    rintro ⟨v, hv, hG⟩
    by_cases ht : t.Holds key
    · refine ⟨v, ?_, hG⟩
      rw [Session.get_view_publish, if_pos ht]
      exact hv
    · rw [Session.get_view_of_free ht] at hv
      obtain ⟨v', hv', hG'⟩ := hO.le (hrel key) ⟨v, hv, hG⟩
      refine ⟨v', ?_, hG'⟩
      rw [Session.get_view_publish, if_neg ht]
      exact hv'
  refine ⟨fun p k hpe hp => ?_, fun x r hx hf hmem => ?_, fun hack => ?_⟩
  · exact (h.visiting p k hpe hp).imp_right hview
  · exact hview (h.answered x r hx hf hmem)
  · exact hO.le (hrel key) (h.acked hack)

end

/-! ## In every run -/

section

variable {C : World E → Action E → Prop} {d₀ : E.D} {w : World E} {i : Nat} {s : Session E}
  {q : E.S} {targets : E.D → List E.K} {apply : E.D → E.D → E.O → E.K → Option (Except E.ε E.W)}
  {resp : List E.W → E.RS q}

/-- The mark is on its way, or where it belongs, if the row is there whenever the update is issued. -/
theorem Reachable.marking (hq : E.Marks q key G targets apply resp) (hO : O.Keeps key G)
    (hresp : O.Respected C d₀)
    (hpresent : ∀ {w : World E} {i : Nat} {s : Session E} {k},
      Reachable C (.init d₀) w → w.sessions[i]? = some s → s.prog = .exec (.sql q) k →
      (E.get w.db key).isSome)
    (h : Reachable C (.init d₀) w) (hs : w.sessions[i]? = some s) : s.Marking q key G w.db := by
  refine h.session_rule (P := fun d _ _ s => s.Marking q key G d) ?_ ?_ ?_ ?_ i s hs
  · intro w c _ _
    exact .of_closed rfl rfl fun hack => absurd hack Engine.not_acknowledged_nil
  · intro w i o s s' d' hw hc hall hs hm
    have hrel := hresp.relates hw hs
    refine hm.marking hq hO ⟨fun k hp => ?_, fun q' t v hv => hresp hw hc hs hv, hrel,
      hw.failedOk hs⟩ (hall i s hs)
    -- What is committed, the session sees.
    obtain ⟨v, hv⟩ := Option.isSome_iff_exists.mp (hpresent hw hs hp)
    exact hO.present v _ (hv ▸ hrel key)
  · intro w i s s' _ _ hP hb
    exact hb.marking hP
  · intro w i j o s s' t d' hw _ hall _ hs ht hm
    rw [hm.publishes]
    exact (hall j t ht).publish hO (hresp.relates hw hs)

/--
**An acknowledged update has left its mark**, if the row is there whenever the
update is issued.
-/
theorem Reachable.marked_of_acknowledged (hq : E.Marks q key G targets apply resp)
    (hO : O.Keeps key G) (hresp : O.Respected C d₀)
    (hpresent : ∀ {w : World E} {i : Nat} {s : Session E} {k},
      Reachable C (.init d₀) w → w.sessions[i]? = some s → s.prog = .exec (.sql q) k →
      (E.get w.db key).isSome)
    (h : Reachable C (.init d₀) w) (hs : w.sessions[i]? = some s)
    (hack : E.Acknowledged s.trace q) : E.Marked G w.db key :=
  (h.marking hq hO hresp hpresent hs).acked hack

/-- So has an update that went through in a transaction whose commit did, whatever else is in it. -/
theorem Reachable.marked_of_confirmed (hq : E.Marks q key G targets apply resp)
    (hO : O.Keeps key G) (hresp : O.Respected C d₀)
    (hpresent : ∀ {w : World E} {i : Nat} {s : Session E} {k},
      Reachable C (.init d₀) w → w.sessions[i]? = some s → s.prog = .exec (.sql q) k →
      (E.get w.db key).isSome)
    (h : Reachable C (.init d₀) w) (hs : w.sessions[i]? = some s)
    (hdone : E.Confirmed s.trace q) : E.Marked G w.db key := by
  refine h.session_rule (P := fun d _ _ s => E.Confirmed s.trace q → E.Marked G d key)
    ?_ ?_ ?_ ?_ i s hs hdone
  · intro w c _ _ hdone
    exact absurd hdone Engine.not_confirmed_nil
  · intro w i o s s' d' hw _ hall hs hm hdone
    have hrel := hresp.relates hw hs
    cases d' with
    | none => exact hall i s hs (hm.confirmed_of_none hdone)
    | some d' =>
      obtain ⟨rfl, _, t, _, ht, hf, _, htr⟩ := hm.publish
      rw [htr] at hdone
      rcases Engine.confirmed_append.mp hdone with hdone | ⟨_, r, hmem⟩
      · exact hO.le (hrel key) (hall i s hs hdone)
      · exact (hw.marking hq hO hresp hpresent hs).answered t r ht hf hmem
  · intro w i s s' _ _ hP hb hdone
    exact hP (hb.confirmed w.db hdone)
  · intro w i j o s s' t d' hw _ hall _ hs ht hm hdone
    rw [hm.publishes]
    exact hO.le (hresp.relates hw hs key) (hall j t ht hdone)

end

end ReadCommitted
