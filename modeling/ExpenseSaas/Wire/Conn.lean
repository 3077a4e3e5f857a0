import Mathlib.Logic.Basic

/-!
# A connection to the database

What a driver knows of a connection, and all that matters of it to whoever gets
it next: whether it is open, where it is in a transaction, and the value of one
setting that was set for the transaction (`set_config(..., true)`).

A command is carried out, or refused by the server, or never sent, or the
connection is lost over it. `Conn.next` says what each of these leaves behind.
The two facts everything rests on are that a setting made for a transaction does
not outlive it (`Tidy.next`), and that no statement leaves the transaction it is
in (`Within.stmt`).
-/

namespace Wire

variable {V : Type}

/-- The transaction status the server reports. -/
inductive TxStatus where
  | idle
  | active
  | failed
  deriving DecidableEq, Repr

/-- The commands, all plain statements taken as one. -/
inductive Verb (V : Type) where
  | begin
  | setLocal (v : V)
  | stmt
  | commit
  | rollback

/-- What became of a command. -/
inductive Verdict where
  | done
  /-- The server answered with an error. -/
  | refused
  /-- It never left the client. -/
  | unsent
  /-- The connection was closed over it. -/
  | lost
  deriving DecidableEq, Repr

/-- A connection. -/
structure Conn (V : Type) where
  closed : Bool
  status : TxStatus
  setting : Option V
  deriving DecidableEq

namespace Conn

/-- A connection that has just been opened. -/
def fresh : Conn V := ⟨false, .idle, none⟩

/-- A connection that is gone. -/
def gone : Conn V := ⟨true, .idle, none⟩

/-- The transaction is over, and what was set for it. -/
def ended (c : Conn V) : Conn V := { c with status := .idle, setting := none }

/-- A statement has failed. -/
def spoiled (c : Conn V) : Conn V := match c.status with
  | .active => { c with status := .failed }
  | _ => c

/-- The connection after a command. -/
def next (c : Conn V) (verb : Verb V) (verdict : Verdict) : Conn V :=
  match verdict, verb with
  | .unsent, _ => c
  | .lost, _ => gone
  | .done, .begin => match c.status with
    | .idle => { c with status := .active }
    | _ => c
  | .done, .setLocal v => match c.status with
    | .active => { c with setting := some v }
    | _ => c
  | .done, .stmt => c
  | .done, .commit => c.ended
  | .done, .rollback => c.ended
  | .refused, .commit => c.ended
  | .refused, .rollback => c
  | .refused, .begin => c.spoiled
  | .refused, .setLocal _ => c.spoiled
  | .refused, .stmt => c.spoiled

/-- What can become of a command: a failed transaction only ends, and nothing is sent once the
connection is closed. -/
def judge (c : Conn V) (verb : Verb V) (verdict : Verdict) : Verdict :=
  if c.closed then .unsent
  else match verdict, c.status, verb with
    | .done, .failed, .commit => .done
    | .done, .failed, .rollback => .done
    | .done, .failed, _ => .refused
    | v, _, _ => v

/-- A pool takes the connection back. -/
def reusable (c : Conn V) : Bool := !c.closed && c.status = .idle

/-- Nothing is left of whoever had the connection before. -/
def Clean (c : Conn V) : Prop := c.closed = false ∧ c.status = .idle ∧ c.setting = none

/-- Settings are those of a transaction. -/
def Tidy (c : Conn V) : Prop := c.status = .idle → c.setting = none

/-- Whatever runs on the connection runs in a transaction with the setting `v`. -/
def Within (v : V) (c : Conn V) : Prop :=
  c.closed = true ∨ (c.status ≠ .idle ∧ c.setting = some v)

variable {c : Conn V} {verb : Verb V} {verdict : Verdict} {v : V}

theorem clean_fresh : (fresh : Conn V).Clean := ⟨rfl, rfl, rfl⟩

theorem Clean.tidy (h : c.Clean) : c.Tidy := fun _ => h.2.2

/-- **A connection a pool takes back is as good as new.** -/
theorem Tidy.clean (h : c.Tidy) (hr : c.reusable = true) : c.Clean := by
  simp only [reusable, Bool.and_eq_true, Bool.not_eq_true', decide_eq_true_eq] at hr
  exact ⟨hr.1, hr.2, h hr.2⟩

theorem Tidy.spoiled (h : c.Tidy) : c.spoiled.Tidy := by
  unfold Conn.spoiled
  split
  · exact fun hs => nomatch hs
  · exact h

/-- **A setting does not outlive its transaction.** -/
theorem Tidy.next (h : c.Tidy) : (c.next verb verdict).Tidy := by
  cases verdict with
  | unsent => exact h
  | lost => exact fun _ => rfl
  | done =>
    cases verb with
    | begin =>
      unfold Conn.next
      dsimp only
      split
      · exact fun hs => nomatch hs
      · exact h
    | setLocal v =>
      unfold Conn.next
      dsimp only
      split
      · rename_i hactive
        exact fun hs => nomatch hactive.symm.trans hs
      · exact h
    | stmt => exact h
    | commit => exact fun _ => rfl
    | rollback => exact fun _ => rfl
  | refused =>
    cases verb with
    | commit => exact fun _ => rfl
    | rollback => exact h
    | begin | setLocal | stmt => exact h.spoiled

theorem Within.spoiled (h : c.Within v) : c.spoiled.Within v := by
  unfold Conn.spoiled
  split
  · exact h.imp_right fun h => ⟨nofun, h.2⟩
  · exact h

/-- **A statement stays in its transaction**, whatever becomes of it. -/
theorem Within.stmt (h : c.Within v) : (c.next .stmt verdict).Within v := by
  cases verdict with
  | done => exact h
  | refused => exact h.spoiled
  | unsent => exact h
  | lost => exact Or.inl rfl

/-- What a command that is carried out says about the connection. -/
theorem judge_done (h : c.judge verb verdict = .done) : c.closed = false ∧ verdict = .done ∧
    (c.status = .failed → verb = .commit ∨ verb = .rollback) := by
  unfold judge at h
  split at h
  · cases h
  · rename_i hopen
    have hopen : c.closed = false := by simpa using hopen
    cases verdict with
    | done =>
      refine ⟨hopen, rfl, fun hf => ?_⟩
      rw [hf] at h
      cases verb with
      | commit => exact Or.inl rfl
      | rollback => exact Or.inr rfl
      | begin | setLocal | stmt => cases h
    | refused | unsent | lost => cases h

/-- An open connection without a failed transaction does what becomes of the command. -/
theorem judge_of_sound (hopen : c.closed = false) (hs : c.status ≠ .failed) :
    c.judge verb verdict = verdict := by
  unfold judge
  rw [hopen]
  cases verdict <;> cases hstatus : c.status <;> first
    | rfl
    | exact absurd hstatus hs

/-- **A transaction and its setting, on a clean connection.** -/
theorem Clean.within (h : c.Clean) : ((c.next .begin .done).next (.setLocal v) .done).Within v := by
  obtain ⟨_, hs, _⟩ := h
  refine Or.inr ?_
  simp [Conn.next, hs]

end Conn

end Wire
