import ExpenseSaas.Alone.Listings

/-!
# Offsets

A list is asked for by the number of a page. The repositories multiply it out in
64 bits and hand the low 32 bits to `OFFSET`, so the rows that come back are
those of the page as long as the product is less than 2³¹. Beyond that the
offset is another number: a negative one, which the database refuses, or a small
one, with the rows of another page behind it, if there are so many.
-/

namespace ExpenseSaas

open ReadCommitted Sql Paging

/-- Where a page is past the last row, it is empty wherever else it is cut, if that is past the last row too. -/
theorem slice_eq_nil {α : Type} {k i : Nat} {l : List α} (h : l.length ≤ i * k) : slice k i l = [] := by
  unfold slice
  rw [List.drop_eq_nil_of_le h, List.take_nil]

section

variable {env : Nat → Oracle} {d : Database} {L : Listing} {actor : Actor} {lower : Char → Char} {k i : Nat}

/-- The offset is that of the page, or lies past the last row as the page does. -/
def Reaches (N k i : Nat) : Prop := i * k < 2 ^ 31 ∨ (N : Int) ≤ int32 (i * k)

/-- **A page is cut where it should be** exactly when the offset is its own or neither of them meets a row. -/
theorem page_eq_slice {α : Type} {l : List α} (hk : 1 ≤ k) (hl : l.length < 2 ^ 31) :
    Sql.page k (int32 (i * k)) l = .ok (slice k i l) ↔ Reaches l.length k i := by
  unfold Reaches
  by_cases hsmall : i * k < 2 ^ 31
  · exact ⟨fun _ => .inl hsmall, fun _ => page_of_small hsmall⟩
  · -- The page is past the last row.
    rw [slice_eq_nil (by omega)]
    generalize int32 ((i : Int) * k) = o
    unfold Sql.page
    constructor
    · intro h
      right
      split at h
      · cases h
      · rename_i hpos
        rw [Except.ok.injEq] at h
        by_contra hlt
        have hlen := congrArg List.length h
        rw [List.length_take, List.length_drop, List.length_nil] at hlen
        omega
    · rintro (h | h)
      · exact absurd h hsmall
      · rw [if_neg (by omega), List.drop_eq_nil_of_le (by omega), List.take_nil]

/--
**A page holds its rows, whatever its number, exactly when its offset reaches it.**
The filter has to be text, and the count to fit.
-/
theorem listed_iff_reaches (hrole : actor.role ∈ L.roles) (hk : 1 ≤ k) (hk' : k ≤ 100)
    (hlower : ∀ n, (env n).lower = lower) :
    (∃ p pg, server.serve env (.tenant actor (L.request (i + 1) k)) d = (.ok p, d) ∧
      p.listed = some ((slice k i (L.arranged actor lower d (env 2).rank)).map ExpenseReport.reportID, pg)) ↔
    L.readable = true ∧ (L.rows actor lower d).length < 2 ^ 31 ∧ Reaches (L.rows actor lower d).length k i := by
  constructor
  · rintro ⟨p, pg, hserve, hlisted⟩
    obtain ⟨rows, total, hanswers, hrows⟩ := answers_of_serve hk hk' hlower hserve
    have hcount := (count_eq_ok.mp hanswers.count).1
    refine ⟨hanswers.readable, hcount, ?_⟩
    by_cases hsmall : i * k < 2 ^ 31
    · exact .inl hsmall
    · -- The page is empty, so no row was answered.
      have hlength : (L.arranged actor lower d (env 2).rank).length = (L.rows actor lower d).length :=
        length_arranged
      have hnil : slice k i (L.arranged actor lower d (env 2).rank) = [] := slice_eq_nil (by omega)
      rw [hlisted, hnil, Option.some.injEq, Prod.mk.injEq, List.map_nil, eq_comm, List.map_eq_nil_iff] at hrows
      rw [← hlength]
      refine (page_eq_slice hk (by omega)).mp ?_
      rw [hanswers.page, hnil, hrows.1]
  · rintro ⟨hread, hcount, hreaches⟩
    have hlength : (L.arranged actor lower d (env 2).rank).length = (L.rows actor lower d).length :=
      length_arranged
    rw [← hlength] at hreaches
    have hpage := (page_eq_slice hk (by rw [length_arranged]; exact hcount)).mpr hreaches
    obtain ⟨p, hp, hlisted⟩ := serve_of_answers hrole hk hk' hlower ⟨hread, hpage, count_eq_ok.mpr ⟨hcount, rfl⟩⟩
    exact ⟨p, _, hp, hlisted⟩

end

/-- The second page of two, from the middle of the list; whichever of its reports comes first. -/
theorem listed_of_secondPage : ∃ p pg, server.serve (fun _ => lowering id)
    (.tenant Sample.approver (Sample.worklist.request ((1 : Nat) + 1) (2 : Nat))) Sample.desk = (.ok p, Sample.desk) ∧
    p.listed = some ((slice 2 1 (Sample.worklist.arranged Sample.approver id Sample.desk
      (lowering id).rank)).map ExpenseReport.reportID, pg) :=
  (listed_iff_reaches (by decide) (by decide) (by decide) fun _ => rfl).mpr
    ⟨rfl, by decide, .inl (by decide)⟩

/--
**Page 2³² + 1, with the rows of page 1.** One report a page, and one report: the
offset is 2³² on its way to the database, and 0 there. From page 2³¹ + 1 on the
offset is negative, and the database refuses it.
-/
theorem listed_of_farPage :
    listedIds (server.serve (fun _ => lowering id)
      (.tenant Sample.owner (Sample.ownList.request (2 ^ 32 + 1) 1)) Sample.database).1 = [1] ∧
    slice 1 (2 ^ 32) (Sample.ownList.arranged Sample.owner id Sample.database (lowering id).rank) = [] ∧
    (server.serve (fun _ => lowering id)
      (.tenant Sample.owner (Sample.ownList.request (2 ^ 31 + 1) 1)) Sample.database).1.toBool = false :=
  ⟨by decide +kernel, slice_eq_nil (by decide), by decide +kernel⟩

end ExpenseSaas
