import ExpenseSaas.ReadCommitted.Locks

/-!
# A client that is alone

What programs do when nobody else is connected. A statement reads the database
or changes it, or it fails and changes nothing; an update visits its targets one
after the other, each in the state the ones before have left. `Solo.step` is a
command, and `Engine.serve` a whole call, from one committed state to the next.

`Reachable.serve` is what this has to do with the sessions of `Machine.lean`:
between the calls of others, a call that runs alone is a run of the machine, so
that whatever holds in every reachable state holds after calls made one by one.
-/

namespace ReadCommitted

variable {E : Engine}

/-- The rest of an update: the targets not visited yet, and the versions written so far. -/
def Engine.visit (E : Engine) (apply : E.K → E.D → Option (Except E.ε E.W)) :
    List E.K → E.D → List E.W → Except E.ε (List E.W × E.D)
  | [], d, done => .ok (done, d)
  | k :: rest, d, done => match apply k d with
    | none => E.visit apply rest d done
    | some (.error e) => .error e
    | some (.ok w) => E.visit apply rest (E.put d w) (done ++ [w])

/-- **What a statement does, alone.** -/
def Engine.alone (E : Engine) (q : E.S) (clock o : E.O) (d : E.D) :
    Except E.ε (E.RS q × E.D) :=
  match E.sem q with
  | .query read => (read d clock o).map fun r => (r, d)
  | .insert row resp => match row d clock o with
    | .error e => .error e
    | .ok w => if E.taken d w then .error E.uniqueViolation else .ok (resp w, E.put d w)
  | .update targets apply resp =>
    (E.visit (fun k cur => apply d cur clock k) (targets d) d []).map fun r => (resp r.1, r.2)

namespace Solo

/-- The transaction of a client that is alone. -/
structure Txn (E : Engine) where
  clock : E.O
  /-- The database as the transaction has left it. -/
  view : E.D
  failed : Bool

end Solo

/-- The committed database, the open transaction, and how many commands there have been. -/
structure Solo (E : Engine) where
  db : E.D
  txn : Option (Solo.Txn E)
  turn : Nat

namespace Solo

/-- The client before its call. -/
def init (d : E.D) : Solo E := ⟨d, none, 0⟩

/-- The next command finds this transaction. -/
def next (s : Solo E) (t : Option (Txn E)) : Solo E := { s with txn := t, turn := s.turn + 1 }

/--
A command, with what the surroundings choose at each turn. A command out of place
(a transaction inside a transaction, a statement outside one) does nothing; no
program here issues any, see `Placed`.
-/
def step (env : Nat → E.O) (s : Solo E) : (c : E.Cmd) → E.Resp c × Solo E
  | .begin => match s.txn with
    | none => (.ok (), s.next (some ⟨env s.turn, s.db, false⟩))
    | some t => (.ok (), s.next (some t))
  | .commit => match s.txn with
    | none => (.ok true, s.next none)
    | some t => if t.failed then (.ok false, s.next none)
      else (.ok true, { s.next none with db := t.view })
  | .rollback => (.ok (), s.next none)
  | .ext x => (E.answer (env s.turn) x, s.next s.txn)
  | .sql q => match s.txn with
    | none => (.error E.inFailed, s.next none)
    | some t => if t.failed then (.error E.inFailed, s.next (some t))
      else match E.alone q t.clock (env s.turn) t.view with
      | .ok (r, d) => (.ok r, s.next (some { t with view := d }))
      | .error e => (.error e, s.next (some { t with failed := true }))

/-- A program that runs alone. -/
abbrev run (env : Nat → E.O) {α : Type} (p : Prog E.Cmd E.Resp α) (s : Solo E) : α × Solo E :=
  p.eval (step env) s

end Solo

/-- **A call that runs alone**: what it returns, and what it leaves. -/
def Engine.serve (E : Engine) (env : Nat → E.O) (c : E.L) (d : E.D) : E.A × E.D :=
  let r := Solo.run env (E.code c) (.init d)
  (r.1, r.2.db)

/-! ## Commands in place -/

/-- The command is in place, inside a transaction or outside. -/
def Placed (inTxn : Bool) : E.Cmd → Prop
  | .begin => inTxn = false
  | .commit => inTxn = true
  | .sql _ => inTxn = true
  | .rollback => True
  | .ext _ => True

/-- Whether the client is inside a transaction after a command. -/
def Leads (inTxn : Bool) : (c : E.Cmd) → E.Resp c → Bool → Prop
  | .begin, r, b => b = r.toBool
  | .commit, _, b => b = false
  | .rollback, _, b => b = false
  | .sql _, _, b => b = inTxn
  | .ext _, _, b => b = inTxn

/-- Every command of the program is in place. -/
abbrev PlacedFrom {α : Type} (p : Prog E.Cmd E.Resp α) (Q : Bool → α → Prop) (inTxn : Bool) : Prop :=
  Prog.Safe Placed Leads p Q inTxn

/-! ## Alone among the sessions -/

/-- Session `i` of a reachable world, which serves `c`, stands at `s`, and nobody else has written
anything. -/
structure Ahead (C : World E → Action E → Prop) (w₀ : World E) (i : Nat) (c : E.L) (w : World E)
    (s : Session E) : Prop where
  reachable : Reachable C w₀ w
  session : w.sessions[i]? = some s
  call : s.call = c
  alone : w.others i = []

/-- The session's transaction is the one of the client that is alone. -/
inductive Solo.Stands (d : E.D) (s : Session E) : Solo E → Prop where
  | closed {n} : s.txn = none → s.pending = none → Stands d s ⟨d, none, n⟩
  | opened {t : ReadCommitted.Txn E} {n} : s.txn = some t → s.pending = none → t.failed = false →
      Stands d s ⟨d, some ⟨t.clock, s.view d, false⟩, n⟩
  | failed {t : ReadCommitted.Txn E} {v n} : s.txn = some t → s.pending = none → t.failed = true →
      Stands d s ⟨d, some ⟨t.clock, v, true⟩, n⟩

section

variable {C : World E → Action E → Prop} {w₀ w : World E} {i : Nat} {l : E.L} {s s' : Session E}
  {d' : Option E.D} {o : E.O}

/-- A step of a session that is alone. -/
theorem Ahead.step (h : Ahead C w₀ i l w s) (hC : C w (.step i o))
    (hstep : s.step w.db [] o = some (s', d')) :
    ∃ w', Ahead C w₀ i l w' s' ∧ w'.db = d'.getD w.db := by
  have hlt : i < w.sessions.length := (List.getElem?_eq_some_iff.mp h.session).1
  have hothers : (w.sessions.set i s').eraseIdx i = w.sessions.eraseIdx i := by
    rw [List.eraseIdx_set_eq]
  rw [← h.alone] at hstep
  have hw : ∃ w', w.step (.step i o) = some w' ∧ w'.sessions = w.sessions.set i s' ∧
      w'.db = d'.getD w.db := by
    simp only [World.step, h.session, hstep, Option.bind_eq_bind, Option.bind_some]
    cases d' with
    | none => exact ⟨_, rfl, rfl, rfl⟩
    | some d => exact ⟨_, rfl, rfl, rfl⟩
  obtain ⟨w', hw', hsessions, hdb⟩ := hw
  refine ⟨w', ⟨h.reachable.tail hC hw', ?_, (Session.move_of_step hstep).told.call_eq.trans h.call, ?_⟩, hdb⟩
  · rw [hsessions, List.getElem?_set_self hlt]
  · have halone := h.alone
    unfold World.others at halone ⊢
    rw [hsessions, hothers, halone]

/-- The session goes on with `p`, and stands where the client that is alone stands. -/
def Arrives (C : World E → Action E → Prop) (w₀ : World E) (i : Nat) (l : E.L)
    (p : Prog E.Cmd E.Resp E.A) (solo : Solo E) : Prop :=
  ∃ w s, Ahead C w₀ i l w s ∧ s.prog = p ∧ Solo.Stands w.db s solo

variable {env : Nat → E.O} {solo : Solo E}

/-- One step, after which the session has its answer. -/
theorem Ahead.arrives (h : Ahead C w₀ i l w s) (hC : C w (.step i o))
    {p : Prog E.Cmd E.Resp E.A} (hstep : s.step w.db [] o = some (s', d')) (hp : s'.prog = p)
    (hs : Solo.Stands (d'.getD w.db) s' solo) : Arrives C w₀ i l p solo := by
  obtain ⟨w', h', hdb⟩ := h.step hC hstep
  exact ⟨w', s', h', hp, hdb ▸ hs⟩

section

variable {q : E.S} {k : E.Resp (.sql q) → Prog E.Cmd E.Resp E.A} {t : Txn E}

/-- A statement that fails undoes the transaction. -/
theorem Ahead.refused (h : Ahead C w₀ i l w s) (hC : C w (.step i o)) (ht : s.txn = some t) {e : E.ε}
    (hstep : s.step w.db [] o = some (s.undone.answered (.sql q) (.error e) k, none)) (v : E.D)
    (n : Nat) : Arrives C w₀ i l (k (.error e)) ⟨w.db, some ⟨t.clock, v, true⟩, n⟩ :=
  h.arrives hC hstep rfl (.failed (t := ⟨t.clock, [], true⟩) (Session.txn_undone ht) rfl rfl)

/-- The visits of an update, one step each. -/
theorem arrives_of_visit (hC : ∀ w n, C w (.step i (env n))) {targets : E.D → List E.K}
    {apply : E.D → E.D → E.O → E.K → Option (Except E.ε E.W)} {resp : List E.W → E.RS q} {snap : E.D}
    {todo : List E.K} {done : List E.W} (hq : E.sem q = .update targets apply resp)
    (h : Ahead C w₀ i l w s) (hp : s.prog = .exec (.sql q) k) (ht : s.txn = some t)
    (hf : t.failed = false) (hpending : s.pending = some ⟨snap, todo, done⟩) {db d : E.D}
    (hdb : w.db = db) (hview : s.view db = d) (v : E.D) (n : Nat) :
    match E.visit (fun k cur => apply snap cur t.clock k) todo d done with
    | .ok (ws, d') => Arrives C w₀ i l (k (.ok (resp ws))) ⟨db, some ⟨t.clock, d', false⟩, n⟩
    | .error e => Arrives C w₀ i l (k (.error e)) ⟨db, some ⟨t.clock, v, true⟩, n⟩ := by
  subst hdb hview
  induction todo generalizing w s t done with
  | nil =>
    -- All targets are visited: the session is answered.
    have hstep : s.step w.db [] (env 0) = some (s.answered (.sql q) (.ok (resp done)) k, none) := by
      simp [Session.step, hp, ht, hf, hq, hpending]
    exact h.arrives (hC w 0) hstep rfl (.opened ht rfl hf)
  | cons key rest ih =>
    unfold Engine.visit
    cases ha : apply snap (s.view w.db) t.clock key with
    | none =>
      have hstep : s.step w.db [] (env 0) =
          some ({ s with pending := some ⟨snap, rest, done⟩ }, none) := by
        simp [Session.step, hp, ht, hf, hq, hpending, ha]
      obtain ⟨w', h', hdb⟩ := h.step (hC w 0) hstep
      have hdb : w'.db = w.db := hdb
      have hrest := ih h' hp ht hf rfl
      rw [hdb] at hrest
      exact hrest
    | some r =>
      cases r with
      | error e =>
        have hstep : s.step w.db [] (env 0) =
            some (s.undone.answered (.sql q) (.error e) k, none) := by
          simp [Session.step, hp, ht, hf, hq, hpending, ha]
        exact h.refused (hC w 0) ht hstep v n
      | ok x =>
        have hstep : s.step w.db [] (env 0) = some ({ s.wrote x with
            pending := some ⟨snap, rest, done ++ [x]⟩ }, none) := by
          simp [Session.step, hp, ht, hf, hq, hpending, ha]
        obtain ⟨w', h', hdb⟩ := h.step (hC w 0) hstep
        have hdb : w'.db = w.db := hdb
        have htxn : (s.wrote x).txn = some { t with writes := t.writes ++ [x] } :=
          Session.txn_wrote ht
        have hrest := ih h' hp htxn hf rfl
        have hview : Session.view { s.wrote x with pending := some ⟨snap, rest, done ++ [x]⟩ } w'.db =
            E.put (s.view w.db) x := by
          rw [hdb]
          exact Session.view_of_wrote (Session.writes_wrote ht)
        rw [hview, hdb] at hrest
        exact hrest

/-- An insertion takes one step. -/
theorem arrives_of_insert (hC : ∀ w n, C w (.step i (env n)))
    {row : E.D → E.O → E.O → Except E.ε E.W} {resp : E.W → E.RS q} (hq : E.sem q = .insert row resp)
    (h : Ahead C w₀ i l w s) (hp : s.prog = .exec (.sql q) k) (ht : s.txn = some t)
    (hf : t.failed = false) {x : E.W} (n : Nat) (hr : row (s.view w.db) t.clock (env n) = .ok x)
    (htaken : E.taken (s.view w.db) x = false) :
    Arrives C w₀ i l (k (.ok (resp x)))
      ⟨w.db, some ⟨t.clock, E.put (s.view w.db) x, false⟩, n + 1⟩ := by
  have hstep : s.step w.db [] (env n) =
      some ((s.wrote x).answered (.sql q) (.ok (resp x)) k, none) := by
    simp only [Session.step, hp, ht, hf, hq, hr, htaken]
    rfl
  refine h.arrives (hC w n) hstep rfl ?_
  rw [← Session.view_of_wrote (d := w.db) (Session.writes_wrote (w := x) ht)]
  exact .opened (t := ⟨t.clock, t.writes ++ [x], t.failed⟩) (Session.txn_wrote ht) rfl hf

/-- An update takes one step for the snapshot, and then the visits. -/
theorem arrives_of_update (hC : ∀ w n, C w (.step i (env n))) {targets : E.D → List E.K}
    {apply : E.D → E.D → E.O → E.K → Option (Except E.ε E.W)} {resp : List E.W → E.RS q}
    (hq : E.sem q = .update targets apply resp) (h : Ahead C w₀ i l w s)
    (hp : s.prog = .exec (.sql q) k) (ht : s.txn = some t) (hf : t.failed = false)
    (hpending : s.pending = none) (n : Nat) :
    match E.visit (fun k cur => apply (s.view w.db) cur t.clock k) (targets (s.view w.db))
      (s.view w.db) [] with
    | .ok (ws, d') => Arrives C w₀ i l (k (.ok (resp ws))) ⟨w.db, some ⟨t.clock, d', false⟩, n + 1⟩
    | .error e => Arrives C w₀ i l (k (.error e)) ⟨w.db, some ⟨t.clock, s.view w.db, true⟩, n + 1⟩ := by
  have hstep : s.step w.db [] (env n) = some ({ s with
      pending := some ⟨s.view w.db, targets (s.view w.db), []⟩ }, none) := by
    simp only [Session.step, hp, ht, hf, hq, hpending]
    rfl
  obtain ⟨w', h', hdb⟩ := h.step (hC w n) hstep
  have hdb : w'.db = w.db := hdb
  have hview : Session.view
      { s with pending := some ⟨s.view w.db, targets (s.view w.db), []⟩ } w.db = s.view w.db := rfl
  exact arrives_of_visit hC hq h' hp ht hf rfl hdb hview (s.view w.db) (n + 1)

/-- A statement of an open transaction is a run of the session. -/
theorem arrives_of_alone (hC : ∀ w n, C w (.step i (env n))) (h : Ahead C w₀ i l w s)
    (hp : s.prog = .exec (.sql q) k) (ht : s.txn = some t) (hf : t.failed = false)
    (hpending : s.pending = none) (n : Nat) :
    match E.alone q t.clock (env n) (s.view w.db) with
    | .ok (r, d') => Arrives C w₀ i l (k (.ok r)) ⟨w.db, some ⟨t.clock, d', false⟩, n + 1⟩
    | .error e => Arrives C w₀ i l (k (.error e)) ⟨w.db, some ⟨t.clock, s.view w.db, true⟩, n + 1⟩ := by
  unfold Engine.alone
  cases hq : E.sem q with
  | query read =>
    dsimp only
    cases hr : read (s.view w.db) t.clock (env n) with
    | ok r =>
      have hstep : s.step w.db [] (env n) = some (s.answered (.sql q) (.ok r) k, none) := by
        simp only [Session.step, hp, ht, hf, hq, hr]
        rfl
      exact h.arrives (hC w n) hstep rfl (.opened ht rfl hf)
    | error e =>
      refine h.refused (hC w n) ht ?_ _ _
      simp only [Session.step, hp, ht, hf, hq, hr]
      rfl
  | insert row resp =>
    dsimp only
    cases hr : row (s.view w.db) t.clock (env n) with
    | error e =>
      refine h.refused (hC w n) ht ?_ _ _
      simp only [Session.step, hp, ht, hf, hq, hr]
      rfl
    | ok x =>
      dsimp only
      by_cases htaken : E.taken (s.view w.db) x = true
      · rw [if_pos htaken]
        refine h.refused (hC w n) ht ?_ _ _
        simp only [Session.step, hp, ht, hf, hq, hr, htaken]
        rfl
      · rw [if_neg htaken]
        exact arrives_of_insert hC hq h hp ht hf n hr (Bool.eq_false_iff.mpr htaken)
  | update targets apply resp =>
    have hvisit := arrives_of_update hC hq h hp ht hf hpending n
    dsimp only
    generalize E.visit _ (targets (s.view w.db)) (s.view w.db) [] = r at hvisit ⊢
    cases r with
    | ok r => exact hvisit
    | error e => exact hvisit

end

/-- A command of the client that is alone is a run of the session. -/
theorem arrives_of_step (hC : ∀ w n, C w (.step i (env n))) {c : E.Cmd}
    {k : E.Resp c → Prog E.Cmd E.Resp E.A} (h : Ahead C w₀ i l w s) (hp : s.prog = .exec c k)
    (hs : Solo.Stands w.db s solo) (hplaced : Placed solo.txn.isSome c) :
    Arrives C w₀ i l (k (solo.step env c).1) (solo.step env c).2 := by
  have hturn := hC w solo.turn
  cases c with
  | begin =>
    cases hs with
    | closed ht hpending =>
      have hview : s.view w.db = w.db := Session.view_of_writes_nil (Session.writes_of_closed ht)
      refine h.arrives hturn (by simp only [Session.step, hp, ht]; rfl) rfl ?_
      exact hview ▸ .opened (t := ⟨env _, [], false⟩) rfl rfl rfl
    | opened => cases hplaced
    | failed => cases hplaced
  | commit =>
    cases hs with
    | closed => cases hplaced
    | opened ht hpending hf =>
      refine h.arrives hturn (by simp only [Session.step, hp, ht, hf]; rfl) rfl ?_
      exact .closed rfl rfl
    | failed ht hpending hf =>
      refine h.arrives hturn (by simp only [Session.step, hp, ht, hf]; rfl) rfl ?_
      exact .closed rfl rfl
  | rollback =>
    cases hs with
    | closed ht | opened ht | failed ht =>
      refine h.arrives hturn (by simp only [Session.step, hp]; rfl) rfl ?_
      exact .closed rfl rfl
  | ext x =>
    cases hs with
    | closed ht hpending =>
      refine h.arrives hturn (by simp only [Session.step, hp]; rfl) rfl ?_
      exact .closed ht rfl
    | opened ht hpending hf =>
      refine h.arrives hturn (by simp only [Session.step, hp]; rfl) rfl ?_
      exact .opened ht rfl hf
    | failed ht hpending hf =>
      refine h.arrives hturn (by simp only [Session.step, hp]; rfl) rfl ?_
      exact .failed ht rfl hf
  | sql q =>
    cases hs with
    | closed => cases hplaced
    | failed ht hpending hf =>
      refine h.arrives hturn (by simp only [Session.step, hp, ht, hf]; rfl) rfl ?_
      exact .failed ht rfl hf
    | @opened t n ht hpending hf =>
      -- nobody else holds a row, so the statement runs through, or is refused
      have halone := arrives_of_alone hC h hp ht hf hpending n
      simp only [Solo.step, Bool.false_eq_true, if_false]
      generalize E.alone q t.clock (env n) (s.view w.db) = r at halone ⊢
      cases r with
      | ok r => exact halone
      | error e => exact halone

/-- Where a client that is alone gets to is where its commands lead. -/
theorem Solo.leads {c : E.Cmd} (h : Placed solo.txn.isSome c) :
    Leads solo.txn.isSome c (solo.step env c).1 (solo.step env c).2.txn.isSome := by
  obtain ⟨db, txn, n⟩ := solo
  cases c with
  | begin => cases txn <;> rfl
  | rollback => cases txn <;> rfl
  | ext x => cases txn <;> rfl
  | commit =>
    cases txn with
    | none => cases h
    | some t =>
      unfold Solo.step
      dsimp only
      split <;> rfl
  | sql q =>
    cases txn with
    | none => cases h
    | some t =>
      unfold Solo.step
      dsimp only
      split
      · rfl
      · split <;> rfl

/-- **A program that runs alone is a run of its session.** -/
theorem arrives_of_run (hC : ∀ w n, C w (.step i (env n))) {p : Prog E.Cmd E.Resp E.A}
    (h : Arrives C w₀ i l p solo)
    (hp : PlacedFrom p (fun inTxn _ => inTxn = false) solo.txn.isSome) :
    Arrives C w₀ i l (.ret (solo.run env p).1) (solo.run env p).2 ∧
      (solo.run env p).2.txn.isSome = false := by
  induction p generalizing solo with
  | ret a => exact ⟨h, hp⟩
  | exec c k ih =>
    obtain ⟨w, s, hahead, hprog, hs⟩ := h
    exact ih _ (arrives_of_step hC hahead hprog hs hp.1) (hp.2 _ _ (Solo.leads hp.1))

end

/--
**Calls made one by one are runs of the machine.** If nobody has written anything
that is not committed, a call may be made and run to its end alone, and what it
returns and leaves is what `serve` says.
-/
theorem Reachable.serve {C : World E → Action E → Prop} {w₀ w : World E} {l : E.L}
    {env : Nat → E.O} (hstart : ∀ w, C w (.start l)) (hC : ∀ w i n, C w (.step i (env n)))
    (h : Reachable C w₀ w) (hidle : ∀ s ∈ w.sessions, s.writes = [])
    (hp : PlacedFrom (E.code l) (fun inTxn _ => inTxn = false) false) :
    ∃ w' s, Reachable C w₀ w' ∧ w'.db = (E.serve env l w.db).2 ∧
      (∀ s ∈ w'.sessions, s.writes = []) ∧ s ∈ w'.sessions ∧ s.call = l ∧
      s.prog = .ret (E.serve env l w.db).1 := by
  have hothers : ({ w with sessions := w.sessions ++ [.new l] } : World E).others
      w.sessions.length = [] := by
    refine List.flatMap_eq_nil_iff.mpr fun s hs => ?_
    rw [List.eraseIdx_append_of_length_le (Nat.le_refl _)] at hs
    exact hidle s (by simpa using hs)
  have hahead : Ahead C w₀ w.sessions.length l
      { w with sessions := w.sessions ++ [.new l] } (.new l) :=
    ⟨h.tail (hstart w) rfl, List.getElem?_concat_length, rfl, hothers⟩
  have hstarts : Arrives C w₀ w.sessions.length l (E.code l) (.init w.db) :=
    ⟨_, _, hahead, rfl, .closed rfl rfl⟩
  obtain ⟨⟨w', s, h', hprog, hstands⟩, hclosed⟩ := arrives_of_run (fun w n => hC w _ n) hstarts hp
  have hdone : ∀ {solo : Solo E}, Solo.Stands w'.db s solo → solo.txn.isSome = false →
      w'.db = solo.db ∧ s.writes = [] := by
    intro solo hs hclosed
    cases hs with
    | closed ht => exact ⟨rfl, Session.writes_of_closed ht⟩
    | opened => cases hclosed
    | failed => cases hclosed
  obtain ⟨hdb, hwrites⟩ := hdone hstands hclosed
  refine ⟨w', s, h'.reachable, hdb, fun t ht => ?_, List.mem_of_getElem? h'.session, h'.call, hprog⟩
  obtain ⟨j, hj⟩ := List.mem_iff_getElem?.mp ht
  by_cases hji : j = w.sessions.length
  · subst hji
    cases hj.symm.trans h'.session
    exact hwrites
  · refine List.eq_nil_iff_forall_not_mem.mpr fun v hv => ?_
    have hv : v ∈ w'.others w.sessions.length := World.mem_others.mpr ⟨j, t, hji, hj, hv⟩
    rw [h'.alone] at hv
    cases hv

end ReadCommitted
