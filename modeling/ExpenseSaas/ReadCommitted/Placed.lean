import ExpenseSaas.ReadCommitted.Runs
import ExpenseSaas.ReadCommitted.Solo

/-!
# Programs that close what they open

A program whose commands are in place (`PlacedFrom`) stays in place in every run,
whoever else is connected and whatever fails. So a session that has returned has
no open transaction, and holds nothing that is not committed
(`Reachable.closed_of_returned`).
-/

namespace ReadCommitted

variable {E : Engine}

/-- What the session has left to do is in place where it stands, and ends outside of a transaction. -/
def Session.InPlace (s : Session E) : Prop := PlacedFrom s.prog (fun b _ => b = false) s.txn.isSome

section

variable {d : E.D} {others : List E.W} {o : E.O} {s s' : Session E} {d' : Option E.D}

/-- After an answer. -/
theorem Session.InPlace.next (h : s.InPlace) {c : E.Cmd} {k : E.Resp c → Prog E.Cmd E.Resp E.A}
    (hp : s.prog = .exec c k) {r : E.Resp c} (hprog : s'.prog = k r)
    (hleads : Leads s.txn.isSome c r s'.txn.isSome) : s'.InPlace := by
  unfold InPlace at h ⊢
  rw [hp] at h
  rw [hprog]
  exact h.2 r _ hleads

/-- **One step.** -/
theorem Move.inPlace (hm : Move d others o s s' d') (h : s.InPlace) : s'.InPlace := by
  cases hm with
  | begin hp ht | commit hp ht hf | abandon hp ht hf | rollback hp | ext hp => exact h.next hp rfl rfl
  | barred hp ht hf | query hp ht hf hq hr | finish hp ht hf hq hpe hto => exact h.next hp rfl rfl
  | refused hp ht hf hr | insert hp ht hf hq hr hu hc => exact h.next hp rfl Option.isSome_map
  | snapshot hp ht hf hq hpe | skip hp ht hf hq hpe hto hl ha => exact h
  | write hp ht hf hq hpe hto hl ha =>
    have hsome : ∀ w, (s.wrote w).txn.isSome = s.txn.isSome := fun w => Option.isSome_map
    unfold Session.InPlace
    dsimp only
    rw [hsome]
    exact h

/-- A command that fails leaves its session in place too. -/
theorem Broken.inPlace (hb : Broken s s') (h : s.InPlace) : s'.InPlace := by
  cases hb with
  | sql e hp => exact h.next hp rfl Option.isSome_map
  | begin e hp | commit e hp | rollback e hp => exact h.next hp rfl rfl

end

variable {C : World E → Action E → Prop} {d₀ : E.D} {w : World E} {i : Nat} {s : Session E}

/-- **A session that has returned has closed its transaction.** -/
theorem Reachable.closed_of_returned (hcode : ∀ c, PlacedFrom (E.code c) (fun b _ => b = false) false)
    (h : Reachable C (.init d₀) w) (hs : w.sessions[i]? = some s) {a : E.A} (hp : s.prog = .ret a) :
    s.txn = none := by
  have hplace : s.InPlace := by
    refine h.session_rule (P := fun _ _ _ s => s.InPlace) ?_ ?_ ?_ ?_ i s hs
    · intro w c _ _
      exact hcode c
    · intro w i o s s' d' _ _ hall hs hm
      exact hm.inPlace (hall i s hs)
    · intro w i s s' _ _ hP hb
      exact hb.inPlace hP
    · intro w i j o s s' t d' _ _ hall _ _ ht _
      exact hall j t ht
  unfold Session.InPlace at hplace
  rw [hp] at hplace
  exact Option.not_isSome_iff_eq_none.mp (Bool.eq_false_iff.mp hplace)

end ReadCommitted
