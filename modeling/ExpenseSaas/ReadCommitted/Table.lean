import Mathlib.Algebra.Ring.Int.Defs
import Mathlib.Data.List.Basic
import Mathlib.Data.List.Nodup

/-!
# Tables with a primary key

A table is its rows in heap order together with the fact that no two of them
share a primary key, so a duplicate key cannot be built. `put` is what a
transaction does to a table when one of its row versions becomes current: the
row with that key is replaced where it stands, and a row with a new key goes to
the end.

The lemmas come in two families. `find_put` and `mem_put` say what a `put` does
to the row under each key. `filter_put_of_not` says that a `put` outside a
selection leaves the selection alone, in the same order, which is what every
"this statement cannot touch that row" argument above needs.
-/

namespace ReadCommitted

variable {R κ : Type} [DecidableEq κ] {key : R → κ}

/-- Replace the row that has the key of `r`, or append `r`. -/
def upsert (key : R → κ) (r : R) : List R → List R
  | [] => [r]
  | x :: xs => if key x = key r then r :: xs else x :: upsert key r xs

theorem mem_keys_upsert {r : R} {l : List R} {k : κ} :
    k ∈ (upsert key r l).map key ↔ k = key r ∨ k ∈ l.map key := by
  induction l with
  | nil => simp [upsert]
  | cons x xs ih =>
    rw [upsert]
    split
    · rename_i hx
      simp [hx]
    · simp only [List.map_cons, List.mem_cons, ih]
      tauto

theorem nodup_upsert {r : R} {l : List R} (h : (l.map key).Nodup) :
    ((upsert key r l).map key).Nodup := by
  induction l with
  | nil => simp [upsert]
  | cons x xs ih =>
    rw [List.map_cons, List.nodup_cons] at h
    rw [upsert]
    split
    · rename_i hx
      rw [List.map_cons, List.nodup_cons]
      exact ⟨hx ▸ h.1, h.2⟩
    · rename_i hx
      rw [List.map_cons, List.nodup_cons, mem_keys_upsert]
      exact ⟨fun hc => hc.elim hx h.1, ih h.2⟩

theorem find?_upsert {r : R} {l : List R} {k : κ} :
    (upsert key r l).find? (fun x => key x = k)
      = if key r = k then some r else l.find? (fun x => key x = k) := by
  induction l with
  | nil => simp [upsert, List.find?_cons]; split <;> simp_all
  | cons x xs ih =>
    rw [upsert]
    split
    · rename_i hx
      simp only [List.find?_cons]
      by_cases hk : key r = k
      · simp [hk]
      · have hxk : ¬ key x = k := by rw [hx]; exact hk
        simp [hk, hxk]
    · rename_i hx
      simp only [List.find?_cons, ih]
      by_cases hk : key x = k
      · have hrk : ¬ key r = k := fun hc => hx (hk.trans hc.symm)
        simp [hk, hrk]
      · simp [hk]

/-- A row with a new key goes to the end. -/
theorem upsert_of_new {r : R} {l : List R} (h : key r ∉ l.map key) : upsert key r l = l ++ [r] := by
  induction l with
  | nil => rfl
  | cons x xs ih =>
    rw [List.map_cons, List.mem_cons, not_or] at h
    rw [upsert, if_neg (Ne.symm h.1), ih h.2, List.cons_append]

/-- An upsert outside a selection leaves the selection as it was. -/
theorem filter_upsert_of_not {p : R → Bool} {r : R} {l : List R} (hr : p r = false)
    (hold : ∀ x ∈ l, key x = key r → p x = false) :
    (upsert key r l).filter p = l.filter p := by
  induction l with
  | nil => simp [upsert, hr]
  | cons x xs ih =>
    rw [upsert]
    split
    · rename_i hx
      have hpx : p x = false := hold x (by simp) hx
      simp [hr, hpx]
    · rw [List.filter_cons, List.filter_cons, ih (fun y hy => hold y (by simp [hy]))]

/-- An upsert within a selection is an upsert of the selection. -/
theorem filter_upsert {p : R → Bool} {r : R} {l : List R} (hr : p r = true)
    (hold : ∀ x ∈ l, key x = key r → p x = true) :
    (upsert key r l).filter p = upsert key r (l.filter p) := by
  induction l with
  | nil => simp [upsert, hr]
  | cons x xs ih =>
    have hxs := ih fun y hy => hold y (List.mem_cons_of_mem _ hy)
    rw [upsert]
    split
    · rename_i hx
      rw [List.filter_cons_of_pos hr, List.filter_cons_of_pos (hold x List.mem_cons_self hx), upsert, if_pos hx]
    · rename_i hx
      rw [List.filter_cons, List.filter_cons, hxs]
      split
      · rw [upsert, if_neg hx]
      · rfl

/-- An upsert takes the old row out of a sum, if there is one, and adds the new one. -/
theorem sum_upsert {g : R → Int} {r : R} {l : List R} : ((upsert key r l).map g).sum =
    (l.map g).sum - ((l.find? fun x => key x = key r).map g).getD 0 + g r := by
  induction l with
  | nil => simp [upsert]
  | cons x xs ih =>
    rw [upsert]
    split
    · rename_i hx
      rw [List.find?_cons_of_pos (by simp [hx])]
      simp only [List.map_cons, List.sum_cons, Option.map_some, Option.getD_some]
      omega
    · rename_i hx
      rw [List.find?_cons_of_neg (by simp [hx])]
      simp only [List.map_cons, List.sum_cons, ih]
      omega

/-- A table: its rows in heap order, no two with the same primary key. -/
structure Table (R : Type) {κ : Type} (key : R → κ) where
  /-- The rows, in heap order. -/
  rows : List R
  /-- The primary key is one. -/
  nodup : (rows.map key).Nodup

namespace Table

variable {t : Table R key} {r x : R} {k : κ}

/-- The table with no rows. -/
def empty : Table R key := ⟨[], List.nodup_nil⟩

/-- The row with primary key `k`. -/
def find (t : Table R key) (k : κ) : Option R := t.rows.find? (fun x => key x = k)

/-- Make `r` the current version of its row. -/
def put (t : Table R key) (r : R) : Table R key := ⟨upsert key r t.rows, nodup_upsert t.nodup⟩

theorem find_put : (t.put r).find k = if key r = k then some r else t.find k := find?_upsert

@[simp] theorem find_put_self : (t.put r).find (key r) = some r := by
  rw [find_put, if_pos rfl]

theorem find_put_ne (h : key r ≠ k) : (t.put r).find k = t.find k := by
  rw [find_put, if_neg h]

theorem mem_of_find (h : t.find k = some x) : x ∈ t.rows := List.mem_of_find?_eq_some h

theorem key_of_find (h : t.find k = some x) : key x = k := by
  simpa using List.find?_some h

theorem find_of_mem (h : x ∈ t.rows) : t.find (key x) = some x := by
  cases hf : t.find (key x) with
  | none =>
    have := List.find?_eq_none.mp hf x h
    simp at this
  | some y =>
    have hy := mem_of_find hf
    have hk := key_of_find hf
    rw [List.inj_on_of_nodup_map t.nodup hy h hk]

theorem mem_iff_find : x ∈ t.rows ↔ t.find (key x) = some x := ⟨find_of_mem, mem_of_find⟩

theorem rows_put_new (h : t.find (key r) = none) : (t.put r).rows = t.rows ++ [r] := by
  refine upsert_of_new fun hmem => ?_
  obtain ⟨x, hx, hk⟩ := List.mem_map.mp hmem
  rw [← hk, find_of_mem hx] at h
  cases h

theorem sum_put {g : R → Int} :
    ((t.put r).rows.map g).sum = (t.rows.map g).sum - ((t.find (key r)).map g).getD 0 + g r := sum_upsert

/-- A `put` outside a selection leaves the selection as it was. -/
theorem filter_put_of_not {p : R → Bool} (hr : p r = false)
    (hold : ∀ x, t.find (key r) = some x → p x = false) :
    (t.put r).rows.filter p = t.rows.filter p := by
  refine filter_upsert_of_not hr (fun x hx hk => hold x ?_)
  rw [← hk]
  exact find_of_mem hx

end Table

end ReadCommitted
