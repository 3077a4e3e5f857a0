/-!
# Lists, errors and schedules

What is found in a list after one element was replaced or added, when a
computation that may fail goes through, and what a schedule shows: one that goes
through ends in a state that is reached by its steps (`Replay.run_rule`).
-/

section

variable {α : Type} {l : List α} {a b : α} {i j : Nat}

/-- What is found in a list with one element replaced. -/
theorem List.getElem?_of_set (h : (l.set i a)[j]? = some b) : (j = i ∧ b = a) ∨ (j ≠ i ∧ l[j]? = some b) := by
  rw [List.getElem?_set] at h
  by_cases hij : i = j
  · rw [if_pos hij] at h
    split at h
    · exact .inl ⟨hij.symm, (Option.some.inj h).symm⟩
    · cases h
  · rw [if_neg hij] at h
    exact .inr ⟨Ne.symm hij, h⟩

/-- What is found in a list with one element added. -/
theorem List.getElem?_of_concat (h : (l ++ [a])[j]? = some b) : (j = l.length ∧ b = a) ∨ l[j]? = some b := by
  rcases Nat.lt_trichotomy j l.length with hj | rfl | hj
  · rw [List.getElem?_append_left hj] at h
    exact .inr h
  · rw [List.getElem?_concat_length] at h
    exact .inl ⟨rfl, (Option.some.inj h).symm⟩
  · rw [List.getElem?_eq_none (by simp; omega)] at h
    cases h

end

/-- What follows is only done after a result. -/
@[simp] theorem Except.bind_eq_ok {ε α β : Type} {x : Except ε α} {f : α → Except ε β} {b : β} :
    x >>= f = .ok b ↔ ∃ a, x = .ok a ∧ f a = .ok b := by
  cases x with
  | error e => simp [bind, Except.bind]
  | ok a => simp [bind, Except.bind]

namespace Replay

variable {S A : Type}

/-- The state after these actions, if each of them can happen and passes `c`. -/
def run (step : S → A → Option S) (c : S → A → Bool) (s : S) : List A → Option S
  | [] => some s
  | a :: as => if c s a then (step s a).bind fun s' => run step c s' as else none

/-- What every action of a schedule keeps holds at its end. -/
theorem run_rule {step : S → A → Option S} {c : S → A → Bool} {I : S → Prop}
    (hstep : ∀ {s s' a}, I s → c s a = true → step s a = some s' → I s') {as : List A} {s s' : S}
    (h : run step c s as = some s') (hs : I s) : I s' := by
  induction as generalizing s with
  | nil =>
    cases h
    exact hs
  | cons a as ih =>
    rw [run] at h
    split at h
    · rename_i ha
      obtain ⟨t, ht, hrun⟩ := Option.bind_eq_some_iff.mp h
      exact ih hrun (hstep hs ha ht)
    · cases h

end Replay
