import ExpenseSaas.ReadCommitted.Machine

/-!
# What one step can do

`Session.step` is a case analysis over the command, the transaction and the
statement. `Move` lists its outcomes once, each with everything that is known
when it happens, `Broken` lists the ways a command can fail from outside, and
`World.step_cases` says that every step of the world is a new call or one of
them. No proof above this file unfolds `step`.

Most arguments do not need all of that. `Effect` is what a move means for the
data: only `insert` and `write` add a row version to the session's own, and only
`commit` publishes them. `Told` is what it means for the program: it is answered
once, or it is not answered yet.
-/

namespace ReadCommitted

variable {E : Engine}

/-- Why a statement was refused by the database itself. -/
inductive Refused (d : E.D) (others : List E.W) (o : E.O) (s : Session E) (t : Txn E) (q : E.S) :
    E.ε → Prop where
  | query {read e} : E.sem q = .query read → read (s.view d) t.clock o = .error e →
      Refused d others o s t q e
  | row {row resp e} : E.sem q = .insert row resp → row (s.view d) t.clock o = .error e →
      Refused d others o s t q e
  | unique {row resp w} : E.sem q = .insert row resp → row (s.view d) t.clock o = .ok w →
      E.taken (s.view d) w = true → Refused d others o s t q E.uniqueViolation
  | apply {targets apply resp p key rest e} : E.sem q = .update targets apply resp →
      s.pending = some p → p.todo = key :: rest →
      (∀ w ∈ others, E.lock w ≠ key) →
      apply p.snap (s.view d) t.clock key = some (.error e) → Refused d others o s t q e

/-- The outcomes of one step of session `s`, with the committed state it leaves. -/
inductive Move (d : E.D) (others : List E.W) (o : E.O) (s : Session E) :
    Session E → Option E.D → Prop where
  | begin {k} : s.prog = .exec .begin k → s.txn = none →
      Move d others o s { s.answered .begin (.ok ()) k with txn := some ⟨o, [], false⟩ } none
  | commit {k t} : s.prog = .exec .commit k → s.txn = some t → t.failed = false →
      Move d others o s { s.answered .commit (.ok true) k with txn := none } (some (s.view d))
  | abandon {k t} : s.prog = .exec .commit k → s.txn = some t → t.failed = true →
      Move d others o s { s.answered .commit (.ok false) k with txn := none } none
  | rollback {k} : s.prog = .exec .rollback k →
      Move d others o s { s.answered .rollback (.ok ()) k with txn := none } none
  | ext {x k} : s.prog = .exec (.ext x) k →
      Move d others o s (s.answered (.ext x) (E.answer o x) k) none
  | barred {q k t} : s.prog = .exec (.sql q) k → s.txn = some t → t.failed = true →
      Move d others o s (s.answered (.sql q) (.error E.inFailed) k) none
  | query {q k t read r} : s.prog = .exec (.sql q) k → s.txn = some t →
      t.failed = false → E.sem q = .query read → read (s.view d) t.clock o = .ok r →
      Move d others o s (s.answered (.sql q) (.ok r) k) none
  | refused {q k t e} : s.prog = .exec (.sql q) k → s.txn = some t → t.failed = false →
      Refused d others o s t q e →
      Move d others o s (s.undone.answered (.sql q) (.error e) k) none
  | insert {q k t row resp w} : s.prog = .exec (.sql q) k → s.txn = some t →
      t.failed = false → E.sem q = .insert row resp → row (s.view d) t.clock o = .ok w →
      E.taken (s.view d) w = false → (∀ v ∈ others, E.clash w v = false) →
      Move d others o s ((s.wrote w).answered (.sql q) (.ok (resp w)) k) none
  | snapshot {q k t targets apply resp} : s.prog = .exec (.sql q) k → s.txn = some t →
      t.failed = false → E.sem q = .update targets apply resp → s.pending = none →
      Move d others o s { s with pending := some ⟨s.view d, targets (s.view d), []⟩ } none
  | skip {q k t targets apply resp p key rest} : s.prog = .exec (.sql q) k → s.txn = some t →
      t.failed = false → E.sem q = .update targets apply resp → s.pending = some p →
      p.todo = key :: rest → (∀ v ∈ others, E.lock v ≠ key) →
      apply p.snap (s.view d) t.clock key = none →
      Move d others o s { s with pending := some { p with todo := rest } } none
  | write {q k t targets apply resp p key rest w} : s.prog = .exec (.sql q) k → s.txn = some t →
      t.failed = false → E.sem q = .update targets apply resp → s.pending = some p →
      p.todo = key :: rest → (∀ v ∈ others, E.lock v ≠ key) →
      apply p.snap (s.view d) t.clock key = some (.ok w) →
      Move d others o s { s.wrote w with
        pending := some { p with todo := rest, done := p.done ++ [w] } } none
  | finish {q k t targets apply resp p} : s.prog = .exec (.sql q) k → s.txn = some t →
      t.failed = false → E.sem q = .update targets apply resp → s.pending = some p →
      p.todo = [] →
      Move d others o s (s.answered (.sql q) (.ok (resp p.done)) k) none

/-- The command of session `s` failed from outside, or as a deadlock victim. -/
inductive Broken (s : Session E) : Session E → Prop where
  | sql {q k} (e : E.ε) : s.prog = .exec (.sql q) k →
      Broken s (s.undone.answered (.sql q) (.error e) k)
  | begin {k} (e : E.ε) : s.prog = .exec .begin k →
      Broken s { s.answered .begin (.error e) k with txn := none }
  | commit {k} (e : E.ε) : s.prog = .exec .commit k →
      Broken s { s.answered .commit (.error e) k with txn := none }
  | rollback {k} (e : E.ε) : s.prog = .exec .rollback k →
      Broken s { s.answered .rollback (.error e) k with txn := none }

namespace Session

variable {d : E.D} {others : List E.W} {o : E.O} {s s' : Session E} {d' : Option E.D}

theorem move_of_step (h : s.step d others o = some (s', d')) : Move d others o s s' d' := by
  unfold step at h
  split at h
  · cases h
  · rename_i hp ht
    cases h
    exact .begin hp ht
  · cases h
  · cases h
  · rename_i hp ht
    split at h
    · rename_i hf
      cases h
      exact .abandon hp ht hf
    · rename_i hf
      cases h
      exact .commit hp ht (by simpa using hf)
  · rename_i hp
    cases h
    exact .rollback hp
  · rename_i hp
    cases h
    exact .ext hp
  · cases h
  · rename_i hp ht
    split at h
    · rename_i hf
      cases h
      exact .barred hp ht hf
    · rename_i hf
      -- the transaction is sound: what happens is up to the kind of statement
      have hf' := by simpa using hf
      split at h
      · rename_i hq
        split at h
        · rename_i hr
          cases h
          exact .query hp ht hf' hq hr
        · rename_i hr
          cases h
          exact .refused hp ht hf' (.query hq hr)
      · rename_i hq
        split at h
        · rename_i hr
          cases h
          exact .refused hp ht hf' (.row hq hr)
        · rename_i hr
          split at h
          · rename_i hu
            cases h
            exact .refused hp ht hf' (.unique hq hr hu)
          · rename_i hu
            split at h
            · cases h
            · rename_i hc
              cases h
              exact .insert hp ht hf' hq hr (by simpa using hu) (by simpa using hc)
      · rename_i hq
        split at h
        · rename_i hpe
          cases h
          exact .snapshot hp ht hf' hq hpe
        · rename_i hpe
          split at h
          · rename_i hto
            cases h
            exact .finish hp ht hf' hq hpe hto
          · rename_i hto
            split at h
            · cases h
            · rename_i hl
              have hl' := by simpa using hl
              split at h
              · rename_i ha
                cases h
                exact .skip hp ht hf' hq hpe hto hl' ha
              · rename_i ha
                cases h
                exact .refused hp ht hf' (.apply hq hpe hto hl' ha)
              · rename_i ha
                cases h
                exact .write hp ht hf' hq hpe hto hl' ha

theorem broken_of_fail {e : E.ε} (h : s.fail e = some s') : Broken s s' := by
  unfold fail at h
  split at h
  · rename_i hp
    cases h
    exact .begin e hp
  · rename_i hp
    cases h
    exact .commit e hp
  · rename_i hp
    cases h
    exact .rollback e hp
  · rename_i hp
    cases h
    exact .sql e hp
  · cases h

end Session

/-- The session an action is about. -/
def Action.index : Action E → Option Nat
  | .start _ => none
  | .step i _ => some i
  | .fail i _ => some i
  | .deadlock i => some i

namespace World

/-- The world after session `i` has moved from `s` to `s'`. -/
def moved (w : World E) (i : Nat) (s s' : Session E) (d' : Option E.D) : World E :=
  { db := d'.getD w.db
    sessions := w.sessions.set i s'
    log := w.log ++ (d'.map fun d => (⟨i, w.db, d⟩ : Entry E)).toList
    begun := w.begun ++ opened s s' }

/-- What an action does: a client calls, one session moves, or its command fails. -/
inductive Took (w : World E) : Action E → World E → Prop where
  | start (c : E.L) : Took w (.start c) { w with sessions := w.sessions ++ [.new c] }
  | move {i : Nat} {o : E.O} {s s' : Session E} {d' : Option E.D} :
      w.sessions[i]? = some s → Move w.db (w.others i) o s s' d' →
      Took w (.step i o) (w.moved i s s' d')
  | broke {a : Action E} {i : Nat} {s s' : Session E} :
      a.index = some i → w.sessions[i]? = some s → Broken s s' →
      Took w a { w with sessions := w.sessions.set i s' }

variable {w w' : World E} {a : Action E}

/-- **Every step is a call, one session's move, or the failure of its command.** -/
theorem step_cases (h : w.step a = some w') : Took w a w' := by
  unfold step at h
  split at h
  · rename_i c
    cases h
    exact .start c
  · rename_i i o
    simp only [Option.bind_eq_bind, Option.bind_eq_some_iff] at h
    obtain ⟨s, hs, ⟨s', d⟩, hstep, h⟩ := h
    have hm := Took.move hs (Session.move_of_step hstep)
    cases d <;> cases h <;> simpa [moved] using hm
  · rename_i i e
    simp only [Option.bind_eq_bind, Option.bind_eq_some_iff, Option.some.injEq] at h
    obtain ⟨s, hs, s', hf, rfl⟩ := h
    exact .broke rfl hs (Session.broken_of_fail hf)
  · rename_i i
    simp only [Option.bind_eq_bind, Option.bind_eq_some_iff] at h
    obtain ⟨s, hs, h⟩ := h
    split at h
    · simp only [Option.bind_eq_some_iff, Option.some.injEq] at h
      obtain ⟨s', hf, rfl⟩ := h
      exact .broke rfl hs (Session.broken_of_fail hf)
    · cases h

end World

/-! ## What a move means for the data -/

/-- The statement adds rows. -/
def Engine.inserts (E : Engine) (q : E.S) : Bool := match E.sem q with
  | .insert _ _ => true
  | _ => false

/-- Session `s` is about to write `w`, by statement `q` of its transaction `t`. -/
structure Writing (d : E.D) (others : List E.W) (s : Session E) (q : E.S) (t : Txn E) (w : E.W) :
    Prop where
  prog : ∃ k, s.prog = .exec (.sql q) k
  txn : s.txn = some t
  sound : t.failed = false
  writes : ∃ snap o, (E.sem q).Writes snap (s.view d) t.clock o w
  /-- A row that is added was not there. -/
  fresh : E.inserts q = true → E.get (s.view d) (E.lock w) = none
  /-- Nor does it break a unique index, whatever becomes of the others' versions. -/
  untaken : E.inserts q = true → E.taken (s.view d) w = false
  unclashed : E.inserts q = true → ∀ v ∈ others, E.clash w v = false
  /-- Nobody else holds the row. -/
  free : ∀ v ∈ others, E.lock v ≠ E.lock w

/-- The data's side of a move: nothing, an undo, one more row version, or publication. -/
inductive Effect (d : E.D) (others : List E.W) (s s' : Session E) : Option E.D → Prop where
  | quiet : s'.writes = s.writes → Effect d others s s' none
  | undo : s'.writes = [] → Effect d others s s' none
  | wrote {q t} (w : E.W) : Writing d others s q t w → s'.writes = s.writes ++ [w] →
      Effect d others s s' none
  | publish {k t} : s.prog = .exec .commit k → s.txn = some t → t.failed = false →
      s'.writes = [] → Effect d others s s' (some (s.view d))

section

variable {d : E.D} {others : List E.W} {o : E.O} {s s' : Session E} {d' : Option E.D} {t : Txn E}

theorem Session.writes_of_txn (h : s.txn = some t) : s.writes = t.writes := by
  unfold Session.writes
  rw [h]

theorem Session.writes_undone : s.undone.writes = [] := by
  unfold Session.writes Session.undone
  cases s.txn <;> rfl

@[simp] theorem Session.writes_of_closed (h : s.txn = none) : s.writes = [] := by
  unfold Session.writes
  rw [h]

theorem Session.writes_wrote {w : E.W} (h : s.txn = some t) :
    (s.wrote w).writes = s.writes ++ [w] := by
  unfold Session.writes Session.wrote
  rw [h]
  rfl

/-- What an insert that goes through writes. -/
theorem Writing.of_insert {q : E.S} {k row resp} {w : E.W} (hp : s.prog = .exec (.sql q) k)
    (ht : s.txn = some t) (hf : t.failed = false) (hq : E.sem q = .insert row resp)
    (hr : row (s.view d) t.clock o = .ok w) (hu : E.taken (s.view d) w = false)
    (hc : ∀ v ∈ others, E.clash w v = false) : Writing d others s q t w := by
  have hw : (E.sem q).Writes d (s.view d) t.clock o w := by
    rw [hq, Sem.writes_insert]
    exact hr
  refine ⟨⟨k, hp⟩, ht, hf, ⟨d, o, hw⟩, fun _ => ?_, fun _ => hu, fun _ => hc, fun v hv hl => ?_⟩
  · cases hg : E.get (s.view d) (E.lock w) with
    | none => rfl
    | some v =>
      rw [E.taken_of_get _ _ (by rw [hg]; rfl)] at hu
      cases hu
  · have hcv := hc v hv
    rw [E.clash_of_lock _ _ hl.symm] at hcv
    cases hcv

/-- What an update writes when it visits a row. -/
theorem Writing.of_update {q : E.S} {k targets apply resp} {snap : E.D} {key : E.K} {w : E.W}
    (hp : s.prog = .exec (.sql q) k) (ht : s.txn = some t) (hf : t.failed = false)
    (hq : E.sem q = .update targets apply resp) (hl : ∀ v ∈ others, E.lock v ≠ key)
    (ha : apply snap (s.view d) t.clock key = some (.ok w)) : Writing d others s q t w := by
  have hw : (E.sem q).Writes snap (s.view d) t.clock t.clock w := by
    rw [hq, Sem.writes_update]
    exact ⟨key, ha⟩
  have hupdate : E.inserts q = false := by rw [Engine.inserts, hq]
  refine ⟨⟨k, hp⟩, ht, hf, ⟨snap, t.clock, hw⟩, fun hi => ?_, fun hi => ?_, fun hi => ?_, ?_⟩
  · exact nomatch hi.symm.trans hupdate
  · exact nomatch hi.symm.trans hupdate
  · exact nomatch hi.symm.trans hupdate
  · rw [E.apply_lock _ _ _ _ hq _ _ _ _ _ ha]
    exact hl

theorem Move.effect (h : Move d others o s s' d') : Effect d others s s' d' := by
  cases h with
  | begin hp ht => exact .quiet (by rw [Session.writes_of_closed ht]; rfl)
  | commit hp ht hf => exact .publish hp ht hf rfl
  | abandon hp ht hf => exact .undo rfl
  | rollback hp => exact .undo rfl
  | ext hp => exact .quiet rfl
  | barred hp ht hf => exact .quiet rfl
  | query hp ht hf hq hr => exact .quiet rfl
  | refused hp ht hf hr => exact .undo Session.writes_undone
  | insert hp ht hf hq hr hu hc =>
    exact .wrote _ (.of_insert hp ht hf hq hr hu hc) (Session.writes_wrote ht)
  | snapshot hp ht hf hq hpe => exact .quiet rfl
  | skip hp ht hf hq hpe hto hl ha => exact .quiet rfl
  | write hp ht hf hq hpe hto hl ha =>
    exact .wrote _ (.of_update hp ht hf hq hl ha) (Session.writes_wrote ht)
  | finish hp ht hf hq hpe hto => exact .quiet rfl

theorem Broken.writes (h : Broken s s') : s'.writes = [] := by
  cases h with
  | sql e hp => exact Session.writes_undone
  | begin e hp => rfl
  | commit e hp => rfl
  | rollback e hp => rfl

theorem Broken.pending (h : Broken s s') : s'.pending = none := by
  cases h <;> rfl

/-- What becomes of the transaction: it is closed, it is opened, or it goes on. -/
inductive TxnMove (o : E.O) (s s' : Session E) : Prop where
  | closed : s'.txn = none → TxnMove o s s'
  | opened {k} : s.prog = .exec .begin k → s.txn = none → s'.txn = some ⟨o, [], false⟩ →
      TxnMove o s s'
  | same {t t' : Txn E} : s.txn = some t → s'.txn = some t' → t'.clock = t.clock →
      (t.failed = true → t'.failed = true) → TxnMove o s s'

theorem Session.txn_undone (h : s.txn = some t) : s.undone.txn = some ⟨t.clock, [], true⟩ := by
  unfold Session.undone
  rw [h]
  rfl

theorem Session.txn_wrote {w : E.W} (h : s.txn = some t) :
    (s.wrote w).txn = some ⟨t.clock, t.writes ++ [w], t.failed⟩ := by
  unfold Session.wrote
  rw [h]
  rfl

/-- What a session holds after a step, it held before or has just written. -/
theorem Effect.mem_writes (h : Effect d others s s' d') {v : E.W} (hv : v ∈ s'.writes) :
    v ∈ s.writes ∨ ∃ q t, Writing d others s q t v := by
  cases h with
  | quiet hw => exact Or.inl (hw ▸ hv)
  | undo hw => exact absurd hv (by simp [hw])
  | publish hp ht hf hw => exact absurd hv (by simp [hw])
  | @wrote q t w hwr hw =>
    rw [hw, List.mem_append, List.mem_singleton] at hv
    rcases hv with hv | rfl
    · exact Or.inl hv
    · exact Or.inr ⟨q, t, hwr⟩

theorem TxnMove.of_eq (h : s'.txn = s.txn) : TxnMove o s s' := by
  cases ht : s.txn with
  | none => exact .closed (h.trans ht)
  | some t => exact .same ht (h.trans ht) rfl fun h => h

theorem Move.txn (h : Move d others o s s' d') : TxnMove o s s' := by
  cases h with
  | begin hp ht => exact .opened hp ht rfl
  | commit hp ht hf => exact .closed rfl
  | abandon hp ht hf => exact .closed rfl
  | rollback hp => exact .closed rfl
  | ext hp => exact .of_eq rfl
  | barred hp ht hf => exact .of_eq rfl
  | query hp ht hf hq hr => exact .of_eq rfl
  | refused hp ht hf hr =>
    exact .same ht (Session.txn_undone ht) rfl fun _ => rfl
  | insert hp ht hf hq hr hu hc =>
    exact .same ht (Session.txn_wrote ht) rfl fun h => h
  | snapshot hp ht hf hq hpe => exact .of_eq rfl
  | skip hp ht hf hq hpe hto hl ha => exact .of_eq rfl
  | write hp ht hf hq hpe hto hl ha =>
    exact .same ht (Session.txn_wrote ht) rfl fun h => h
  | finish hp ht hf hq hpe hto => exact .of_eq rfl

theorem Broken.txn (h : Broken s s') : s'.txn = none ∨
    ∃ t t', s.txn = some t ∧ s'.txn = some t' ∧ t'.clock = t.clock ∧ t'.failed = true := by
  cases h with
  | sql e hp =>
    cases ht : s.txn with
    | none => exact Or.inl (by simp [Session.undone, Session.answered, ht])
    | some t =>
      exact Or.inr ⟨t, ⟨t.clock, [], true⟩, rfl, Session.txn_undone ht, rfl, rfl⟩
  | begin e hp => exact Or.inl rfl
  | commit e hp => exact Or.inl rfl
  | rollback e hp => exact Or.inl rfl

/-- A step that changes the committed state is a commit, and closes the transaction. -/
theorem Move.publish {d₁ : E.D} (h : Move d others o s s' (some d₁)) :
    d₁ = s.view d ∧ s'.txn = none ∧ ∃ t k, s.txn = some t ∧ t.failed = false ∧
      s.prog = .exec .commit k ∧ s'.trace = s.trace ++ [⟨.commit, .ok true⟩] := by
  cases h with
  | commit hp ht hf => exact ⟨rfl, rfl, _, _, ht, hf, hp, rfl⟩

/-- Nothing else is answered like a commit that went through. -/
theorem Move.not_committed (h : Move d others o s s' none) :
    s'.trace ≠ s.trace ++ [⟨.commit, .ok true⟩] := by
  cases h <;> simp [Session.answered, Session.undone, Session.wrote]

theorem Broken.not_committed (h : Broken s s') :
    s'.trace ≠ s.trace ++ [⟨.commit, .ok true⟩] := by
  cases h <;> simp [Session.answered, Session.undone]

/-- The session is about to make what it has written current. -/
def Session.Committing (s : Session E) : Prop :=
  (∃ k, s.prog = .exec .commit k) ∧ ∃ t, s.txn = some t ∧ t.failed = false

theorem Move.committing {d₁ : E.D} (h : Move d others o s s' (some d₁)) : s.Committing := by
  obtain ⟨_, _, t, k, ht, hf, hp, _⟩ := h.publish
  exact ⟨⟨k, hp⟩, t, ht, hf⟩

/-! ## What a move means for the program -/

/-- The answer `r` to command `c`, and where it comes from. -/
inductive Answer (d : E.D) (s : Session E) : (c : E.Cmd) → E.Resp c → Prop where
  | query {q t read o r} : s.txn = some t → E.sem q = .query read →
      read (s.view d) t.clock o = .ok r → Answer d s (.sql q) (.ok r)
  | insert {q t row resp o w} : s.txn = some t → E.sem q = .insert row resp →
      row (s.view d) t.clock o = .ok w → Answer d s (.sql q) (.ok (resp w))
  | update {q targets apply resp p} : E.sem q = .update targets apply resp →
      s.pending = some p → p.todo = [] → Answer d s (.sql q) (.ok (resp p.done))
  | error {q} (e : E.ε) : Answer d s (.sql q) (.error e)
  | ext {x} (o : E.O) : Answer d s (.ext x) (E.answer o x)
  | begin (r : Except E.ε Unit) : Answer d s .begin r
  | commit (r : Except E.ε Bool) : Answer d s .commit r
  | rollback (r : Except E.ε Unit) : Answer d s .rollback r

/-- The program's side of a move: it has been answered, or it still waits. -/
inductive Told (d : E.D) (s s' : Session E) : Prop where
  | answer {c : E.Cmd} {k : E.Resp c → Prog E.Cmd E.Resp E.A} (r : E.Resp c) :
      s.prog = .exec c k → Answer d s c r → s'.prog = k r → s'.trace = s.trace ++ [⟨c, r⟩] →
      s'.call = s.call → s'.pending = none → Told d s s'
  | wait : s'.prog = s.prog → s'.trace = s.trace → s'.call = s.call → Told d s s'

theorem Move.told (h : Move d others o s s' d') : Told d s s' := by
  cases h with
  | begin hp ht => exact .answer _ hp (.begin _) rfl rfl rfl rfl
  | commit hp ht hf => exact .answer _ hp (.commit _) rfl rfl rfl rfl
  | abandon hp ht hf => exact .answer _ hp (.commit _) rfl rfl rfl rfl
  | rollback hp => exact .answer _ hp (.rollback _) rfl rfl rfl rfl
  | ext hp => exact .answer _ hp (.ext _) rfl rfl rfl rfl
  | barred hp ht hf => exact .answer _ hp (.error _) rfl rfl rfl rfl
  | query hp ht hf hq hr => exact .answer _ hp (.query ht hq hr) rfl rfl rfl rfl
  | refused hp ht hf hr => exact .answer _ hp (.error _) rfl rfl rfl rfl
  | insert hp ht hf hq hr hu hc => exact .answer _ hp (.insert ht hq hr) rfl rfl rfl rfl
  | snapshot hp ht hf hq hpe => exact .wait rfl rfl rfl
  | skip hp ht hf hq hpe hto hl ha => exact .wait rfl rfl rfl
  | write hp ht hf hq hpe hto hl ha => exact .wait rfl rfl rfl
  | finish hp ht hf hq hpe hto => exact .answer _ hp (.update hq hpe hto) rfl rfl rfl rfl

theorem Broken.told (h : Broken s s') : Told d s s' := by
  cases h with
  | sql e hp => exact .answer _ hp (.error e) rfl rfl rfl rfl
  | begin e hp => exact .answer _ hp (.begin _) rfl rfl rfl rfl
  | commit e hp => exact .answer _ hp (.commit _) rfl rfl rfl rfl
  | rollback e hp => exact .answer _ hp (.rollback _) rfl rfl rfl rfl

/-- Only a session that has a command issued moves. -/
theorem Move.running (h : Move d others o s s' d') : ∃ c k, s.prog = .exec c k := by
  cases h <;> exact ⟨_, _, by assumption⟩

theorem Broken.running (h : Broken s s') : ∃ c k, s.prog = .exec c k := by
  cases h <;> exact ⟨_, _, by assumption⟩

theorem Told.call_eq (h : Told d s s') : s'.call = s.call := by
  cases h with
  | answer r hp ha hp' ht hc => exact hc
  | wait hp ht hc => exact hc

theorem Told.trace_prefix (h : Told d s s') : s.trace <+: s'.trace := by
  cases h with
  | answer r hp ha hp' ht hc => exact ht ▸ List.prefix_append _ _
  | wait hp ht hc => exact ht ▸ List.prefix_rfl

end

end ReadCommitted
