import ExpenseSaas.Basic
import ExpenseSaas.ReadCommitted.Prog

/-!
# Sessions at READ COMMITTED

The meaning of a set of client programs that talk to one PostgreSQL database at
its default isolation level, one command at a time, in any order.

* A **query** reads a snapshot taken when the statement starts: everything
  committed so far plus the transaction's own writes.
* An **insert** adds a row version. It waits while another open transaction has
  written a row it would clash with on a unique index.
* An **update** takes its snapshot and its list of target rows in one step, and
  then visits the targets one by one. A target another open transaction has
  written is waited for; when its turn comes the `WHERE` is evaluated again on
  the row's *current* version, while subqueries still read the snapshot.
* Row versions stay private to their transaction until **commit** publishes all
  of them at once. An error undoes the transaction on the spot, and what is left
  of it refuses everything until it is closed. A commit that is answered with an
  error has published nothing.

Rows are locked by having been written: two open transactions never hold a
version of the same row.

`World.log` and `World.begun` are history variables. No step reads them; they
are there so that a theorem can speak about past commits and past transactions.
-/

namespace ReadCommitted

/-- What a client may issue: transaction control, SQL, or a call to something else. -/
inductive Cmd (S X : Type) where
  | begin
  | commit
  | rollback
  | sql (s : S)
  | ext (x : X)

/-- The answers. `commit` says whether there was anything left to commit. -/
@[reducible] def Cmd.Resp {S X : Type} (RS : S → Type) (RX : X → Type) (ε : Type) :
    Cmd S X → Type
  | .begin => Except ε Unit
  | .commit => Except ε Bool
  | .rollback => Except ε Unit
  | .sql s => Except ε (RS s)
  | .ext x => RX x

/-- What a statement does, given the database its transaction sees. -/
inductive Sem (D O W K ε β : Type) where
  /-- Read: the transaction's view, its clock, and the choices of this step. -/
  | query (read : D → O → O → Except ε β)
  /-- Add the row that `row` makes, and answer with it. -/
  | insert (row : D → O → O → Except ε W) (resp : W → β)
  /--
  Visit the rows `targets` selects from the snapshot. `apply snap cur clock k`
  is the new version of row `k`, or nothing when its current version no longer
  satisfies the `WHERE`. The answer is made from the versions that were written.
  -/
  | update (targets : D → List K) (apply : D → D → O → K → Option (Except ε W))
      (resp : List W → β)

/-- The statement can write `w`, over this snapshot and this current view. -/
def Sem.Writes {D O W K ε β : Type} : Sem D O W K ε β → D → D → O → O → W → Prop
  | .query _, _, _, _, _, _ => False
  | .insert row _, _, cur, clock, o, w => row cur clock o = .ok w
  | .update _ apply _, snap, cur, clock, _, w => ∃ k, apply snap cur clock k = some (.ok w)

namespace Sem

variable {D O W K ε β : Type} {snap cur : D} {clock o : O} {w : W}

@[simp] theorem writes_query {read : D → O → O → Except ε β} :
    ¬ (query read : Sem D O W K ε β).Writes snap cur clock o w := id

@[simp] theorem writes_insert {row : D → O → O → Except ε W} {resp : W → β} :
    (insert row resp : Sem D O W K ε β).Writes snap cur clock o w ↔ row cur clock o = .ok w := Iff.rfl

@[simp] theorem writes_update {targets : D → List K} {apply : D → D → O → K → Option (Except ε W)}
    {resp : List W → β} : (update targets apply resp).Writes snap cur clock o w ↔
      ∃ k, apply snap cur clock k = some (.ok w) := Iff.rfl

attribute [irreducible] Writes

end Sem

/-- A database, its statements, and the programs clients run against it. -/
structure Engine where
  /-- Committed states. -/
  D : Type
  /-- Row versions. -/
  W : Type
  /-- Row identities. -/
  K : Type
  /-- SQL statements. -/
  S : Type
  /-- What a statement answers. -/
  RS : S → Type
  /-- Calls that are not SQL. -/
  X : Type
  /-- What such a call answers. -/
  RX : X → Type
  /-- What the surroundings choose at each step: clocks, generated keys, answers. -/
  O : Type
  /-- SQL errors. -/
  ε : Type
  /-- The calls a client may make. -/
  L : Type
  /-- What a call returns. -/
  A : Type
  [decK : DecidableEq K]
  put : D → W → D
  get : D → K → Option W
  lock : W → K
  /-- The row would break a unique index of this state. -/
  taken : D → W → Bool
  /-- Two row versions that cannot both become current. -/
  clash : W → W → Bool
  sem : (s : S) → Sem D O W K ε (RS s)
  answer : O → (x : X) → RX x
  inFailed : ε
  uniqueViolation : ε
  deadlock : ε
  code : L → Prog (Cmd S X) (Cmd.Resp RS RX ε) A
  get_put : ∀ d w k, get (put d w) k = if lock w = k then some w else get d k
  clash_of_lock : ∀ v w, lock v = lock w → clash v w = true
  taken_of_get : ∀ d w, (get d (lock w)).isSome → taken d w = true
  apply_lock : ∀ s targets apply resp, sem s = .update targets apply resp →
    ∀ snap cur o k w, apply snap cur o k = some (.ok w) → lock w = k

attribute [instance] Engine.decK

/-- The commands of an engine's clients. -/
abbrev Engine.Cmd (E : Engine) : Type := ReadCommitted.Cmd E.S E.X

/-- And their answers. -/
abbrev Engine.Resp (E : Engine) : E.Cmd → Type := ReadCommitted.Cmd.Resp E.RS E.RX E.ε

/-- A client's history: what it issued and what it was answered. -/
abbrev Engine.History (E : Engine) : Type := List (Event E.Cmd E.Resp)

variable (E : Engine)

/-- An open transaction. -/
structure Txn where
  /-- What was chosen when it began, its `now()` included. -/
  clock : E.O
  /-- Its row versions, oldest first. -/
  writes : List E.W
  /-- A statement failed; everything but closing it is refused. -/
  failed : Bool

/-- An update that has its snapshot and has rows left to visit. -/
structure Pending where
  snap : E.D
  todo : List E.K
  /-- The versions it has written. -/
  done : List E.W

/-- One client call in progress. -/
structure Session where
  call : E.L
  /-- What is left to do. -/
  prog : Prog E.Cmd E.Resp E.A
  txn : Option (Txn E)
  pending : Option (Pending E)
  trace : E.History

/-- A commit that happened. -/
structure Entry where
  /-- The session that committed. -/
  sess : Nat
  pre : E.D
  post : E.D

/-- Everything there is at one moment. -/
structure World where
  db : E.D
  sessions : List (Session E)
  log : List (Entry E)
  /-- The clock of every transaction that was ever opened. -/
  begun : List E.O

/-- What happens next. -/
inductive Action where
  /-- A client makes a call. -/
  | start (c : E.L)
  /-- Session `i` takes its next step. -/
  | step (i : Nat) (o : E.O)
  /-- The command session `i` has issued fails. -/
  | fail (i : Nat) (e : E.ε)
  /-- Session `i` is chosen as the victim of a deadlock. -/
  | deadlock (i : Nat)

variable {E}

/-- The versions a transaction has written, made current. -/
def Engine.putAll (E : Engine) (d : E.D) (ws : List E.W) : E.D := ws.foldl E.put d

namespace Session

/-- A call that has just been made. -/
def new (c : E.L) : Session E := ⟨c, E.code c, none, none, []⟩

/-- The row versions the session has written and not yet committed. -/
def writes (s : Session E) : List E.W := match s.txn with
  | none => []
  | some t => t.writes

/-- The database as the session sees it. -/
def view (s : Session E) (d : E.D) : E.D := E.putAll d s.writes

/-- The session has its answer and goes on. -/
def answered (s : Session E) (c : E.Cmd) (r : E.Resp c)
    (k : E.Resp c → Prog E.Cmd E.Resp E.A) : Session E :=
  { s with prog := k r, pending := none, trace := s.trace ++ [⟨c, r⟩] }

/-- The session's transaction failed, and with it everything it wrote. -/
def undone (s : Session E) : Session E :=
  { s with txn := s.txn.map fun t => { t with writes := [], failed := true } }

/-- The session writes `w`. -/
def wrote (s : Session E) (w : E.W) : Session E :=
  { s with txn := s.txn.map fun t => { t with writes := t.writes ++ [w] } }

/--
The next step of a session, and the committed state it leaves when the step is a
commit. `others` are the uncommitted versions of all other sessions. `none`
means that the session has to wait, or is done.
-/
def step (d : E.D) (others : List E.W) (o : E.O) (s : Session E) :
    Option (Session E × Option E.D) :=
  match s.prog, s.txn with
  | .ret _, _ => none
  | .exec .begin k, none =>
      some ({ s.answered .begin (.ok ()) k with txn := some ⟨o, [], false⟩ }, none)
  | .exec .begin _, some _ => none
  | .exec .commit _, none => none
  | .exec .commit k, some t =>
      if t.failed then some ({ s.answered .commit (.ok false) k with txn := none }, none)
      else some ({ s.answered .commit (.ok true) k with txn := none }, some (s.view d))
  | .exec .rollback k, _ => some ({ s.answered .rollback (.ok ()) k with txn := none }, none)
  | .exec (.ext x) k, _ => some (s.answered (.ext x) (E.answer o x) k, none)
  | .exec (.sql _) _, none => none
  | .exec (.sql q) k, some t =>
      if t.failed then some (s.answered (.sql q) (.error E.inFailed) k, none)
      else match E.sem q with
      | .query read => match read (s.view d) t.clock o with
        | .ok r => some (s.answered (.sql q) (.ok r) k, none)
        | .error e => some (s.undone.answered (.sql q) (.error e) k, none)
      | .insert row resp => match row (s.view d) t.clock o with
        | .error e => some (s.undone.answered (.sql q) (.error e) k, none)
        | .ok w =>
          if E.taken (s.view d) w then
            some (s.undone.answered (.sql q) (.error E.uniqueViolation) k, none)
          else if others.any (E.clash w) then none
          else some ((s.wrote w).answered (.sql q) (.ok (resp w)) k, none)
      | .update targets apply resp => match s.pending with
        | none => some ({ s with pending := some ⟨s.view d, targets (s.view d), []⟩ }, none)
        | some p => match p.todo with
          | [] => some (s.answered (.sql q) (.ok (resp p.done)) k, none)
          | key :: rest =>
            if others.any (fun w => E.lock w = key) then none
            else match apply p.snap (s.view d) t.clock key with
            | none => some ({ s with pending := some { p with todo := rest } }, none)
            | some (.error e) => some (s.undone.answered (.sql q) (.error e) k, none)
            | some (.ok w) =>
              some ({ s.wrote w with
                pending := some { p with todo := rest, done := p.done ++ [w] } }, none)

/--
The command the session has issued fails with `e`. A `COMMIT` that fails is undone; one
that the database has applied and whose answer is lost on the way is left out.
-/
def fail (e : E.ε) (s : Session E) : Option (Session E) :=
  match s.prog with
  | .exec .begin k => some { s.answered .begin (.error e) k with txn := none }
  | .exec .commit k => some { s.answered .commit (.error e) k with txn := none }
  | .exec .rollback k => some { s.answered .rollback (.error e) k with txn := none }
  | .exec (.sql q) k => some (s.undone.answered (.sql q) (.error e) k)
  | _ => none

/--
The session can be a deadlock victim: it waits for a row another session has
written, and holds a row itself.
-/
def stuck (others : List E.W) (s : Session E) : Bool :=
  match s.pending with
  | some p => match p.todo with
    | key :: _ => others.any (fun w => E.lock w = key) && !s.writes.isEmpty
    | [] => false
  | none => false

end Session

namespace World

/-- A database nobody is connected to. -/
def init (d : E.D) : World E := ⟨d, [], [], []⟩

/-- The uncommitted versions of every session but `i`. -/
def others (w : World E) (i : Nat) : List E.W := (w.sessions.eraseIdx i).flatMap Session.writes

/-- The transaction a step opened, if it opened one. -/
def opened (s s' : Session E) : List E.O := match s.txn, s'.txn with
  | none, some t => [t.clock]
  | _, _ => []

/-- The next state, or `none` when the action is not possible. -/
def step (w : World E) : Action E → Option (World E)
  | .start c => some { w with sessions := w.sessions ++ [.new c] }
  | .step i o => do
      let s ← w.sessions[i]?
      let (s', d) ← s.step w.db (w.others i) o
      let w' := { w with sessions := w.sessions.set i s', begun := w.begun ++ opened s s' }
      match d with
      | none => some w'
      | some d => some { w' with db := d, log := w.log ++ [⟨i, w.db, d⟩] }
  | .fail i e => do
      let s ← w.sessions[i]?
      let s' ← s.fail e
      some { w with sessions := w.sessions.set i s' }
  | .deadlock i => do
      let s ← w.sessions[i]?
      if s.stuck (w.others i) then
        let s' ← s.fail E.deadlock
        some { w with sessions := w.sessions.set i s' }
      else none

/--
The state after a schedule each action of which passes `c` where it is taken;
`none` when one does not, or is not possible.
-/
def run (c : World E → Action E → Bool) : World E → List (Action E) → Option (World E) :=
  Replay.run step c

end World

/--
The states that some run reaches from `w₀`, where every action of the run
satisfies `C` in the state it is taken in.
-/
inductive Reachable (C : World E → Action E → Prop) (w₀ : World E) : World E → Prop where
  | init : Reachable C w₀ w₀
  | tail {w w' : World E} {a : Action E} :
      Reachable C w₀ w → C w a → w.step a = some w' → Reachable C w₀ w'

/-- What holds at the start and is kept by every step holds in every reachable state. -/
theorem Reachable.invariant {C : World E → Action E → Prop} {w₀ w : World E} {I : World E → Prop}
    (h₀ : I w₀)
    (hstep : ∀ w w' a, Reachable C w₀ w → I w → C w a → w.step a = some w' → I w')
    (h : Reachable C w₀ w) : I w := by
  induction h with
  | init => exact h₀
  | tail hr hc hs ih => exact hstep _ _ _ hr ih hc hs

/-- A schedule that goes through is a run. -/
theorem reachable_of_run {C : World E → Action E → Prop} {c : World E → Action E → Bool}
    (hc : ∀ w a, c w a = true → C w a) {w₀ w w' : World E} {as : List (Action E)}
    (h : w.run c as = some w') (hw : Reachable C w₀ w) : Reachable C w₀ w' :=
  Replay.run_rule (fun hw ha hstep => .tail hw (hc _ _ ha) hstep) h hw

/-- A schedule that goes through and ends in a state with property `P` shows that one is reached. -/
theorem exists_of_run {C : World E → Action E → Prop} {c : World E → Action E → Bool}
    (hc : ∀ w a, c w a = true → C w a) {w₀ : World E} {as : List (Action E)}
    {P : World E → Bool} (h : (w₀.run c as).any P = true) :
    ∃ w, Reachable C w₀ w ∧ P w = true := by
  obtain ⟨w, hw, hP⟩ := (Option.any_eq_true _ _).mp h
  exact ⟨w, reachable_of_run hc hw .init, hP⟩

end ReadCommitted
