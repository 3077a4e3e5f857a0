import ExpenseSaas.Isolation.Requests
import ExpenseSaas.Runs.Schedules

/-!
# Tenants do not interfere

A tenant's requests depend on the users, on its own rows and on the common
categories, and on nothing else. So the requests of the other tenants can be left
out of any sequence of requests, or the other tenants' rows replaced by others:
the tenant is answered the same (`answers_of_purged`).

The requests are served one after the other. The one thing tenants share is the
supply of identifiers: a request of one tenant must not draw one that a request of
another has drawn.
-/

namespace ExpenseSaas

open ReadCommitted Sql

/-- What is tenant `t`'s, and what is everybody's. -/
def Footprint.ofTenant (t : UUID) : Footprint where
  owns t' _ := t' = t
  tenant t' := t' = t
  category c := c = none || c = some t

/-- A request of an authenticated client, with what its surroundings decide. -/
structure Request where
  actor : Actor
  endpoint : Endpoint
  env : Nat → Oracle

/-- Serve a request. -/
def Request.serve (r : Request) (d : Database) : Outcome × Database :=
  server.serve r.env (.tenant r.actor r.endpoint) d

/-- The request draws the identifier. -/
def Request.Draws (r : Request) (u : UUID) : Prop := ∃ n, (r.env n).uuid = u

/-- Serve requests one after the other: to whom there was answered what. -/
def answers : List Request → Database → List (Actor × Outcome)
  | [], _ => []
  | r :: rs, d => (r.actor, (r.serve d).1) :: answers rs (r.serve d).2

/-- And the database after them. -/
def after : List Request → Database → Database
  | [], d => d
  | r :: rs, d => after rs (r.serve d).2

@[simp] theorem answers_cons {r : Request} {rs : List Request} {d : Database} :
    answers (r :: rs) d = (r.actor, (r.serve d).1) :: answers rs (r.serve d).2 := rfl

/-- Every item has a category of its tenant, or a common one. -/
def Filed (d : Database) : Prop := ∀ t, Offered (.ofTenant t) d

section

variable {d d' : Database} {t : UUID} {ids : UUID → Prop} {r : Request} {rs : List Request}

theorem covers_ofTenant {actor : Actor} {e : Endpoint} :
    (Footprint.ofTenant actor.tenantID).CoversRequest actor e where
  tenant := decide_eq_true rfl
  common := rfl
  category := by simp [Footprint.ofTenant]
  named _ _ := decide_eq_true rfl
  unnamed _ _ := decide_eq_true rfl

theorem apart_ofTenant {t t' : UUID} (h : t ≠ t') :
    (Footprint.ofTenant t).Apart (.ofTenant t') := by
  intro t'' k hown
  obtain rfl := of_decide_eq_true hown
  exact decide_eq_false (Ne.symm h)

/-- A request writes within its tenant. -/
theorem Request.grown (hd : Filed d) : Grown (.ofTenant r.actor.tenantID) r.Draws d (r.serve d).2 :=
  serve_grown covers_ofTenant (fun n => ⟨n, rfl⟩) (hd _)

/-- Items stay filed. -/
theorem Filed.serve (hd : Filed d) (r : Request) : Filed (r.serve d).2 := by
  intro t
  by_cases ht : r.actor.tenantID = t
  · exact ht ▸ (Request.grown hd).offered (hd _)
  · exact (Request.grown hd).offered_apart (apart_ofTenant (Ne.symm ht)) (hd t)

/-- A request of another tenant makes no difference to a tenant. -/
theorem agree_of_other (hd : Filed d) (ht : r.actor.tenantID ≠ t)
    (hids : ∀ u, r.Draws u → ¬ ids u) :
    Agree (.ofTenant t) ids d (r.serve d).2 :=
  (Request.grown hd).agree (apart_ofTenant (Ne.symm ht)) hids

/-- The requests of a tenant, among requests of others and without them. -/
theorem answers_of_agree (hd : Filed d) (h : Agree (.ofTenant t) ids d d')
    (hown : ∀ r ∈ rs, r.actor.tenantID = t → ∀ u, r.Draws u → ids u)
    (hother : ∀ r ∈ rs, r.actor.tenantID ≠ t → ∀ u, r.Draws u → ¬ ids u) :
    (answers rs d).filter (fun a => a.1.tenantID = t) =
        answers (rs.filter fun r => r.actor.tenantID = t) d' ∧
      Agree (.ofTenant t) ids (after rs d)
        (after (rs.filter fun r => r.actor.tenantID = t) d') := by
  induction rs generalizing d d' with
  | nil => exact ⟨rfl, h⟩
  | cons r rs ih =>
    have hown' : ∀ r ∈ rs, r.actor.tenantID = t → ∀ u, r.Draws u → ids u :=
      fun r hr => hown r (List.mem_cons_of_mem _ hr)
    have hother' : ∀ r ∈ rs, r.actor.tenantID ≠ t → ∀ u, r.Draws u → ¬ ids u :=
      fun r hr => hother r (List.mem_cons_of_mem _ hr)
    by_cases ht : r.actor.tenantID = t
    · -- served in both runs
      subst ht
      have hdraws : ∀ n, ids (r.env n).uuid := fun n => hown r List.mem_cons_self rfl _ ⟨n, rfl⟩
      have hserved : (r.serve d').1 = (r.serve d).1 ∧
          Agree (.ofTenant r.actor.tenantID) ids (r.serve d).2 (r.serve d').2 :=
        serve_agree covers_ofTenant hdraws (hd _) h
      obtain ⟨houtcome, hagree⟩ := hserved
      obtain ⟨hrest, hend⟩ := ih (hd.serve r) hagree hown' hother'
      rw [List.filter_cons_of_pos (by simp), answers_cons, List.filter_cons_of_pos (by simp),
        answers_cons, houtcome]
      exact ⟨congrArg _ hrest, hend⟩
    · -- served in the first run only
      have hmiss : Agree (.ofTenant t) ids (r.serve d).2 d' :=
        (agree_of_other hd ht (hother r List.mem_cons_self ht)).symm.trans h
      obtain ⟨hrest, hend⟩ := ih (hd.serve r) hmiss hown' hother'
      rw [List.filter_cons_of_neg (by simpa using ht), answers_cons,
        List.filter_cons_of_neg (by simpa using ht)]
      exact ⟨hrest, hend⟩

/-- The identifiers the requests of a tenant draw. -/
def DrawnBy (t : UUID) (rs : List Request) (u : UUID) : Prop :=
  ∃ r ∈ rs, r.actor.tenantID = t ∧ r.Draws u

/--
**Tenants do not interfere.** In a sequence of requests of all tenants, those of
tenant `t` are answered as they would be if nobody else had made any, and if the
rows of the other tenants were others.
-/
theorem answers_of_purged (hd : Filed d) (h : Agree (.ofTenant t) (DrawnBy t rs) d d')
    (hfresh : ∀ r ∈ rs, ∀ r' ∈ rs, r.actor.tenantID = t → r'.actor.tenantID ≠ t →
      ∀ u, r.Draws u → ¬ r'.Draws u) :
    (answers rs d).filter (fun a => a.1.tenantID = t) =
        answers (rs.filter fun r => r.actor.tenantID = t) d' ∧
      Agree (.ofTenant t) (DrawnBy t rs) (after rs d)
        (after (rs.filter fun r => r.actor.tenantID = t) d') := by
  refine answers_of_agree hd h (fun r hr ht u hu => ⟨r, hr, ht, hu⟩) fun r' hr' ht' u hu => ?_
  rintro ⟨r, hr, ht, hru⟩
  exact hfresh r hr r' hr' ht ht' u hru hu

end

/-! ## Two tenants -/

namespace Sample

/-- A member of another tenant. -/
def stranger : Actor := ⟨23, 11, .member⟩

/-- The report of the stranger. -/
def strangersReport : ExpenseReport :=
  { (default : ExpenseReport) with
    reportID := 70, tenantID := 11, userID := 23, createdAt := 6, updatedAt := 6 }

def twoTenants : Database := { database with reports := database.reports.put strangersReport }

def addItem : Request := ⟨owner, .createItem 1 newItem, fun _ => .at 100⟩

def deleteStrangersReport : Request := ⟨stranger, .deleteReport 70, fun _ => .at 200⟩

def listReports : Request := ⟨owner, .listMyReports default, fun _ => .at 300⟩

theorem filed {d : Database} (hitems : d.items = database.items)
    (hcategories : d.categories = database.categories) : Filed d := by
  intro t i x hx _
  obtain rfl := RowId.item.inj (Database.id_of_get hx)
  have hmem : x ∈ d.items.rows := (itemRows.mem_rows _ _).mpr hx
  rw [hitems] at hmem
  obtain rfl : x = item := List.mem_singleton.mp hmem
  refine ⟨.category category, ?_, rfl⟩
  show (d.categories.find _).map Version.category = _
  rw [hcategories]
  rfl

/-- Requests that draw at different times draw different identifiers. -/
theorem draws_ne {r r' : Request} {a b : Timestamp} (hab : a ≠ b) (hr : r.env = fun _ => .at a)
    (hr' : r'.env = fun _ => .at b) (u : UUID) (hu : r.Draws u) : ¬ r'.Draws u := by
  rintro ⟨n', hn'⟩
  obtain ⟨n, hn⟩ := hu
  rw [hr] at hn
  rw [hr'] at hn'
  exact hab (hn.trans hn'.symm)

end Sample

/-- The stranger's report and what becomes of it are nothing to the owner. -/
theorem answers_of_twoTenants :
    (answers [Sample.addItem, Sample.deleteStrangersReport, Sample.listReports]
        Sample.twoTenants).filter (fun a => a.1.tenantID = 10) =
      answers [Sample.addItem, Sample.listReports] Sample.database := by
  refine (answers_of_purged (t := 10) (d := Sample.twoTenants) (Sample.filed rfl rfl) ?_ ?_).1
  · refine ⟨rfl, rfl, rfl, rfl, rfl, rfl, rfl, fun k hk => ?_⟩
    -- neither 100 nor 300 is the identifier of a row
    obtain ⟨u, ⟨r, hr, ht, n, rfl⟩, hk⟩ := hk
    simp only [List.mem_cons, List.not_mem_nil, or_false] at hr
    rcases hr with rfl | rfl | rfl
    · rcases hk with rfl | rfl | rfl <;> rfl
    · cases ht
    · rcases hk with rfl | rfl | rfl <;> rfl
  · intro r hr r' hr' ht ht' u hu
    simp only [List.mem_cons, List.not_mem_nil, or_false] at hr hr'
    rcases hr with rfl | rfl | rfl
    · rcases hr' with rfl | rfl | rfl
      · exact absurd rfl ht'
      · exact Sample.draws_ne (by decide) rfl rfl u hu
      · exact absurd rfl ht'
    · cases ht
    · rcases hr' with rfl | rfl | rfl
      · exact absurd rfl ht'
      · exact Sample.draws_ne (by decide) rfl rfl u hu
      · exact absurd rfl ht'

end ExpenseSaas
