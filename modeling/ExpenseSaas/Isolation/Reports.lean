import ExpenseSaas.Isolation.Tenants

/-!
# Requests about different reports

Requests that name different reports, or come from different tenants, are
independent of each other: each is answered as it would be alone, and the rows
they leave are the same in whatever order they are served (`independent_of_apart`).

A list is not independent of what changes its reports, so a request that names no
report has the footprint of its tenant.
-/

namespace ExpenseSaas

open ReadCommitted Sql

/-- A footprint with one report only. -/
def Footprint.ofReport (t k : UUID) : Footprint where
  owns t' k' := t' = t && k' = k
  tenant t' := t' = t
  category c := c = none || c = some t

/-- What a request depends on: the report it names, or all of its tenant. -/
def Request.footprint (r : Request) : Footprint :=
  match r.endpoint.path with
  | some k => .ofReport r.actor.tenantID k
  | none => .ofTenant r.actor.tenantID

/-- The requests are of different tenants, or name different reports. -/
def Request.Apart (r r' : Request) : Prop :=
  r.actor.tenantID ≠ r'.actor.tenantID ∨
    ∃ k k', r.endpoint.path = some k ∧ r'.endpoint.path = some k' ∧ k ≠ k'

/-- Nor do they draw the same identifier. -/
structure Request.Independent (r r' : Request) : Prop where
  apart : r.Apart r'
  draws : ∀ u, r.Draws u → ¬ r'.Draws u

section

variable {d d' : Database} {F : Footprint} {ids : UUID → Prop} {r r' : Request}
  {rs rs' : List Request}

theorem Request.owns_tenant {t k : UUID} (h : r.footprint.owns t k = true) :
    t = r.actor.tenantID := by
  unfold Request.footprint at h
  split at h
  · exact of_decide_eq_true (Bool.and_eq_true_iff.mp h).1
  · exact of_decide_eq_true h

theorem Request.owns_path {t k j : UUID} (h : r.footprint.owns t k = true)
    (hpath : r.endpoint.path = some j) :
    k = j := by
  unfold Request.footprint at h
  rw [hpath] at h
  exact of_decide_eq_true (Bool.and_eq_true_iff.mp h).2

theorem Request.Apart.symm (h : r.Apart r') : r'.Apart r := by
  rcases h with ht | ⟨k, k', hk, hk', hne⟩
  · exact .inl (Ne.symm ht)
  · exact .inr ⟨k', k, hk', hk, Ne.symm hne⟩

theorem Request.Independent.symm (h : r.Independent r') : r'.Independent r :=
  ⟨h.apart.symm, fun u hu hu' => h.draws u hu' hu⟩

theorem Request.Apart.footprint (h : r.Apart r') : r.footprint.Apart r'.footprint := by
  intro t k hown
  cases hr : r.footprint.owns t k with
  | false => rfl
  | true =>
    exfalso
    rcases h with ht | ⟨j, j', hj, hj', hne⟩
    · exact ht ((Request.owns_tenant hr).symm.trans (Request.owns_tenant hown))
    · exact hne ((Request.owns_path hr hj).symm.trans (Request.owns_path hown hj'))

theorem Request.covers : r.footprint.CoversRequest r.actor r.endpoint := by
  unfold Request.footprint
  split
  · rename_i k hk
    refine ⟨⟨decide_eq_true rfl, rfl, by simp [Footprint.ofReport]⟩, fun j hj => ?_, fun hnone => ?_⟩
    · rw [hk] at hj
      cases hj
      simp [Footprint.ofReport]
    · rw [hk] at hnone
      cases hnone
  · exact covers_ofTenant

/-- What is filed within a tenant is filed within a footprint of one of its reports. -/
theorem Filed.offered (hd : Filed d) : Offered r.footprint d := by
  intro i x hx hown
  have ht := Request.owns_tenant hown
  obtain ⟨v, hv, hF⟩ := hd r.actor.tenantID i x hx (decide_eq_true ht)
  refine ⟨v, hv, ?_⟩
  obtain ⟨c, rfl⟩ : ∃ c, v = .category c := by
    cases v with
    | category c => exact ⟨c, rfl⟩
    | _ => exact RowId.noConfusion (Database.id_of_get hv)
  unfold Request.footprint
  split <;> exact hF

theorem Request.written (hd : Filed d) : Grown r.footprint r.Draws d (r.serve d).2 :=
  serve_grown Request.covers (fun n => ⟨n, rfl⟩) hd.offered

/-! ## Requests in a row -/

/-- What is apart from all of the requests sees none of them. -/
theorem agree_after (hd : Filed d) (hF : ∀ r ∈ rs, F.Apart r.footprint)
    (hids : ∀ r ∈ rs, ∀ u, r.Draws u → ¬ ids u) : Agree F ids d (after rs d) := by
  induction rs generalizing d with
  | nil => exact .refl
  | cons r rs ih =>
    have hr : Agree F ids d (r.serve d).2 :=
      (Request.written hd).agree (hF r List.mem_cons_self) (hids r List.mem_cons_self)
    refine hr.trans (ih (hd.serve r) (fun r' hr' => ?_) fun r' hr' => ?_)
    · exact hF r' (List.mem_cons_of_mem _ hr')
    · exact hids r' (List.mem_cons_of_mem _ hr')

/-- And no row is touched that is no report, item or attachment. -/
theorem rest_after (hd : Filed d) {key : RowId}
    (hkey : ∀ v : Version, v.id = key → v.isData = false) :
    (after rs d).get key = d.get key := by
  induction rs generalizing d with
  | nil => rfl
  | cons r rs ih => exact (ih (hd.serve r)).trans ((Request.written hd).rest hkey)

/-- A request is answered the same after one it is independent of. -/
theorem serve_of_independent (hd : Filed d) (h : r.Independent r') :
    (r.serve (r'.serve d).2).1 = (r.serve d).1 ∧
      Agree r.footprint r.Draws (r.serve d).2 (r.serve (r'.serve d).2).2 :=
  serve_agree Request.covers (fun n => ⟨n, rfl⟩) hd.offered
    ((Request.written hd).agree h.apart.footprint h.symm.draws)

/-- Each of the requests is answered as if it was the only one. -/
theorem answers_of_independent (hd : Filed d) (h : rs.Pairwise Request.Independent) :
    answers rs d = rs.map fun r => (r.actor, (r.serve d).1) := by
  induction rs generalizing d with
  | nil => rfl
  | cons r rs ih =>
    obtain ⟨hr, hrs⟩ := List.pairwise_cons.mp h
    rw [answers_cons, ih (hd.serve r) hrs, List.map_cons]
    refine congrArg _ (List.map_congr_left fun r' hr' => ?_)
    rw [(serve_of_independent hd (hr r' hr').symm).1]

/-- What a request leaves within its footprint the others keep. -/
theorem agree_of_independent (hd : Filed d) (h : rs.Pairwise Request.Independent) (hr : r ∈ rs) :
    Agree r.footprint r.Draws (r.serve d).2 (after rs d) := by
  induction rs generalizing d with
  | nil => cases hr
  | cons r₀ rs ih =>
    obtain ⟨hr₀, hrs⟩ := List.pairwise_cons.mp h
    rcases List.mem_cons.mp hr with rfl | hr
    · -- all that comes after it is independent of it
      refine agree_after (hd.serve r) (fun r' hr' => ?_) fun r' hr' => ?_
      · exact (hr₀ r' hr').apart.footprint
      · exact (hr₀ r' hr').symm.draws
    · -- it is served after `r₀` what it would be served at once
      exact (serve_of_independent hd (hr₀ r hr).symm).2.trans (ih (hd.serve r₀) hrs hr)

/-- Everything but the reports that one of the requests depends on. -/
def Footprint.besides (rs : List Request) : Footprint where
  owns t k := rs.all fun r => !r.footprint.owns t k
  tenant _ := true
  category _ := true

theorem apart_besides (hr : r ∈ rs) : (Footprint.besides rs).Apart r.footprint := by
  intro t k hown
  show (rs.all fun r => !r.footprint.owns t k) = false
  rw [List.all_eq_false]
  exact ⟨r, hr, by rw [hown]; decide⟩

theorem holds_besides {v : Version} (hdata : v.isData = true)
    (h : ∀ r ∈ rs, r.footprint.holds v = false) : (Footprint.besides rs).holds v = true := by
  have hnone : ∀ r ∈ rs, (!r.footprint.holds v) = true := fun r hr => by rw [h r hr]; rfl
  cases v with
  | report x => exact List.all_eq_true.mpr hnone
  | item x => exact List.all_eq_true.mpr hnone
  | attachment a => exact List.all_eq_true.mpr hnone
  | _ => cases hdata

/-- The row is the same in every order. -/
theorem get_of_perm (hd : Filed d) (h : rs.Pairwise Request.Independent) (hperm : rs.Perm rs')
    {key : RowId} {v : Version} (hv : (after rs d).get key = some v) :
    (after rs' d).get key = some v := by
  have h' : rs'.Pairwise Request.Independent := hperm.pairwise h fun h => h.symm
  by_cases hdata : v.isData = true
  · by_cases hown : ∃ r ∈ rs, r.footprint.holds v = true
    · -- the request whose row it is has left it so
      obtain ⟨r, hr, hF⟩ := hown
      have hserved := (agree_of_independent hd h hr).symm.get hv hF
      exact (agree_of_independent hd h' (hperm.mem_iff.mp hr)).get hserved hF
    · -- it is nobody's row, and was there before
      have hnone : ∀ r ∈ rs, r.footprint.holds v = false :=
        fun r hr => Bool.eq_false_iff.mpr fun hF => hown ⟨r, hr, hF⟩
      have hF := holds_besides hdata hnone
      have hsame : Agree (.besides rs) (fun _ => False) d (after rs d) :=
        agree_after hd (fun r hr => apart_besides hr) fun _ _ _ _ hu => hu
      have hsame' : Agree (.besides rs) (fun _ => False) d (after rs' d) :=
        agree_after hd (fun r hr => apart_besides (hperm.mem_iff.mpr hr)) fun _ _ _ _ hu => hu
      exact hsame'.get (hsame.symm.get hv hF) hF
  · -- a row of another table is never written
    have hrest : ∀ w : Version, w.id = key → w.isData = false := by
      intro w hw
      cases hwd : w.isData with
      | false => rfl
      | true => exact absurd (isData_of_id hwd ((Database.id_of_get hv).trans hw.symm)) hdata
    rw [rest_after hd hrest] at hv ⊢
    exact hv

/--
**Requests about different reports, or of different tenants, are independent.**
Served one after the other in any order, each is answered as if it was the only
one, and the rows they leave are the same.
-/
theorem independent_of_apart (hd : Filed d) (h : rs.Pairwise Request.Independent) :
    (answers rs d = rs.map fun r => (r.actor, (r.serve d).1)) ∧
      ∀ rs', rs.Perm rs' → ∀ key, (after rs' d).get key = (after rs d).get key := by
  refine ⟨answers_of_independent hd h, fun rs' hperm key => ?_⟩
  have h' : rs'.Pairwise Request.Independent := hperm.pairwise h fun h => h.symm
  cases hv : (after rs d).get key with
  | some v => exact get_of_perm hd h hperm hv
  | none =>
    cases hv' : (after rs' d).get key with
    | none => rfl
    | some v => exact (get_of_perm hd h' hperm.symm hv').symm.trans hv

end

/-! ## Three reports -/

namespace Sample

def secondReport : ExpenseReport :=
  { (default : ExpenseReport) with
    reportID := 71, tenantID := 10, userID := 20, createdAt := 7, updatedAt := 7 }

def threeReports : Database := { twoTenants with reports := twoTenants.reports.put secondReport }

def deleteSecondReport : Request := ⟨owner, .deleteReport 71, fun _ => .at 400⟩

end Sample

/-- An item is added to one report and two others are deleted, in whatever order. -/
theorem independent_of_threeReports :
    (answers [Sample.addItem, Sample.deleteStrangersReport, Sample.deleteSecondReport]
          Sample.threeReports =
        [Sample.addItem, Sample.deleteStrangersReport, Sample.deleteSecondReport].map
          fun r => (r.actor, (r.serve Sample.threeReports).1)) ∧
      ∀ rs', [Sample.addItem, Sample.deleteStrangersReport, Sample.deleteSecondReport].Perm rs' →
        ∀ key, (after rs' Sample.threeReports).get key =
          (after [Sample.addItem, Sample.deleteStrangersReport, Sample.deleteSecondReport]
            Sample.threeReports).get key := by
  have hadd : Sample.addItem.Independent Sample.deleteStrangersReport :=
    ⟨.inl (by decide), Sample.draws_ne (by decide) rfl rfl⟩
  have hsame : Sample.addItem.Independent Sample.deleteSecondReport :=
    ⟨.inr ⟨1, 71, rfl, rfl, by decide⟩, Sample.draws_ne (by decide) rfl rfl⟩
  have hdelete : Sample.deleteStrangersReport.Independent Sample.deleteSecondReport :=
    ⟨.inl (by decide), Sample.draws_ne (by decide) rfl rfl⟩
  refine independent_of_apart (d := Sample.threeReports) (Sample.filed rfl rfl)
    (List.pairwise_cons.mpr ⟨?_, List.pairwise_cons.mpr ⟨?_, ?_⟩⟩)
  · exact List.forall_mem_cons.mpr ⟨hadd, List.forall_mem_singleton.mpr hsame⟩
  · exact List.forall_mem_singleton.mpr hdelete
  · exact List.pairwise_singleton _ _

end ExpenseSaas
