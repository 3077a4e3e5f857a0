import ExpenseSaas.Isolation.Grounds

/-!
# Requests within a footprint

A request whose footprint covers it is answered the same in two databases that
agree on the footprint, and leaves them agreeing (`serve_agree`). What it writes
lies within the footprint, so a footprint that has nothing in common with it sees
no difference (`Grown.agree`).
-/

namespace ExpenseSaas

open ReadCommitted Sql

section

variable {F : Footprint} {ids : UUID → Prop} {d d' e e' d₀ : Database} {q : Stmt} {clock o : Oracle}

/-! ## What an answer vouches for -/

/-- A query changes nothing. -/
theorem alone_query {read : Database → Oracle → Oracle → Except SqlError q.Result} {r : q.Result}
    (hq : server.sem q = .query read) (h : server.alone q clock o d = .ok (r, e)) :
    read d clock o = .ok r ∧ e = d := by
  unfold Engine.alone at h
  rw [hq] at h
  dsimp only at h
  cases hr : read d clock o with
  | error err =>
    rw [hr] at h
    cases h
  | ok x =>
    rw [hr] at h
    cases h
    exact ⟨rfl, rfl⟩

/-- **What an answer vouches for is there**, within the footprint. -/
theorem inside_of_vouched (hd : Offered F d) (hw : q.Within F) {r : q.Result}
    (h : server.alone q clock o d = .ok (r, e)) {key : RowId} (hkey : key ∈ q.vouches r) :
    F.Inside e key := by
  cases q with
  | getReportByID t k =>
    obtain ⟨hr, rfl⟩ := alone_query rfl h
    cases r with
    | none => cases hkey
    | some r =>
      obtain rfl := List.mem_singleton.mp hkey
      obtain ⟨hmem, hsel⟩ := reportRows.mem_of_first (Except.ok.inj hr)
      have hget := (reportRows.mem_rows _ _).mp hmem
      have hF := holds_of_reportIs hw hsel
      simp only [reportIs, Bool.and_eq_true, decide_eq_true_eq] at hsel
      -- the query has looked for this tenant and this report
      exact ⟨_, hsel.1.2 ▸ hget, hF⟩
  | createReport p =>
    unfold Engine.alone at h
    rw [show server.sem (.createReport p) = reportRows.insert (reportRow p) from rfl] at h
    unfold Relation.insert at h
    dsimp only at h
    cases hr : reportRow p d clock o with
    | error err =>
      rw [hr] at h
      cases h
    | ok x =>
      rw [hr] at h
      dsimp only [Except.map] at h
      split at h
      · cases h
      · cases h
        obtain rfl := List.mem_singleton.mp hkey
        obtain ⟨_, _, rfl⟩ := reportRow_ok hr
        -- the report has just been put there
        refine ⟨_, (Database.get_put _ _ _).trans (if_pos rfl), ?_⟩
        exact hw.2 o.uuid
  | getExpenseItemByID t k i =>
    obtain ⟨hr, rfl⟩ := alone_query rfl h
    cases r with
    | none => cases hkey
    | some x =>
      obtain rfl := List.mem_singleton.mp hkey
      obtain ⟨hmem, hsel⟩ := itemRows.mem_of_first (Except.ok.inj hr)
      obtain ⟨hitem, hid⟩ := Bool.and_eq_true_iff.mp hsel
      obtain rfl := of_decide_eq_true hid
      exact ⟨_, (itemRows.mem_rows _ _).mp hmem, holds_of_itemOf hw hitem⟩
  | listExpenseItemsByReportID t k =>
    obtain ⟨hr, rfl⟩ := alone_query rfl h
    cases hr
    obtain ⟨x, hx, rfl⟩ := List.mem_map.mp hkey
    obtain ⟨hmem, hsel⟩ := List.mem_filter.mp ((List.mem_insertionSort _).mp hx)
    -- a list of items vouches for their categories, which the items themselves are offered
    exact hd x.itemID x ((itemRows.mem_rows _ _).mp hmem) (holds_of_itemOf hw hsel)
  | getCategoryByID t c =>
    obtain ⟨hr, rfl⟩ := alone_query rfl h
    cases r with
    | none => cases hkey
    | some x =>
      obtain rfl := List.mem_singleton.mp hkey
      obtain ⟨hmem, hsel⟩ := categoryRows.mem_of_first (Except.ok.inj hr)
      have hget := (categoryRows.mem_rows _ _).mp hmem
      simp only [Bool.and_eq_true, Bool.or_eq_true, decide_eq_true_eq] at hsel
      obtain rfl := hsel.1.1
      refine ⟨_, hget, ?_⟩
      show F.category x.tenantID = true
      -- a category of the tenant, or a common one
      rcases hsel.2 with ht | ht
      · rw [ht]
        exact hw.2
      · rw [ht]
        exact hw.1
  | _ => cases hkey

/-! ## Requests in databases that agree -/

/-- What two transactions with one history have in common. -/
structure Insight (F : Footprint) (ids : UUID → Prop) (d₀ : Database) (tr : Trace)
    (v v' : Database) : Prop where
  agree : Agree F ids v v'
  grown : Grown F ids d₀ v
  vouched : ∀ key, Vouched tr key → F.Inside v key
  drew : ∀ u, Drew tr u → ids u

theorem Insight.append {tr : Trace} {v v' : Database} (h : Insight F ids d₀ tr v v')
    {ev : Event Command Command.Resp} (hnew : ∀ (q : Stmt) (r : q.Result), ev ≠ ⟨.sql q, .ok r⟩)
    (hdrew : ∀ u, ev = ⟨.ext .newUUID, u⟩ → ids u) : Insight F ids d₀ (tr ++ [ev]) v v' := by
  refine { h with vouched := fun key hk => ?_, drew := fun u hu => ?_ }
  · obtain ⟨q, r, hev, hk⟩ := hk
    rcases List.mem_append.mp hev with hev | hev
    · exact h.vouched key ⟨q, r, hev, hk⟩
    · exact absurd (List.mem_singleton.mp hev).symm (hnew q r)
  · rcases List.mem_append.mp hu with hu | hu
    · exact h.drew u hu
    · exact hdrew u (List.mem_singleton.mp hu).symm

/-- **Statements of a request that keeps its grounds** respect what the footprint shows. -/
def agreement (hd : Offered F d₀) : server.Agreement (Grounded F) (fun o => ids o.uuid) where
  base v v' := Agree F ids v v' ∧ Grown F ids d₀ v
  inside := Insight F ids d₀
  begin {tr d d'} htr h := by
    obtain rfl : tr = [] := htr
    refine ⟨h.1, h.2, fun key hk => ?_, fun u hu => ?_⟩
    · obtain ⟨q, r, hev, _⟩ := hk
      cases List.mem_singleton.mp hev
    · cases List.mem_singleton.mp hu
  commit h := ⟨h.agree, h.grown⟩
  ext {tr d d' o} x ho h := by
    refine h.append (fun q r hev => by cases hev) fun u hu => ?_
    cases hu
    exact ho
  failed q err h := h.append (fun q r hev => by cases hev) fun u hu => by cases hu
  sql {tr q clock o v v'} hq _ ho h := by
    -- the rows the statement relies on were vouched for by an earlier answer
    have hv := h.grown.offered hd
    have hout : Outcomes (Alike F ids v) (server.alone q clock o v) (server.alone q clock o v') :=
      alone_agree hv hq.1 (fun key hk => h.vouched key (hq.2.1 key hk))
        (fun u hu => h.drew u (hq.2.2 u hu)) ho h.agree
    generalize hx : server.alone q clock o v = x at hout
    generalize server.alone q clock o v' = x' at hout
    cases hout with
    | error => exact .error
    | @ok r e e' hr =>
      refine .ok ⟨hr.1, h.grown.trans hr.2, fun key hk => ?_, fun u hu => ?_⟩
      · -- what was vouched for before is still there; the rest this answer vouches for
        obtain ⟨q', r', hev, hk⟩ := hk
        rcases List.mem_append.mp hev with hev | hev
        · exact hr.2.inside (h.vouched key ⟨q', r', hev, hk⟩)
        · cases List.mem_singleton.mp hev
          exact inside_of_vouched hv hq.1 hx hk
      · rcases List.mem_append.mp hu with hu | hu
        · exact h.drew u hu
        · cases List.mem_singleton.mp hu

variable {env : Nat → Oracle} {actor : Actor} {ep : Endpoint}

/-- **A request is answered the same** in two databases that agree on a footprint that covers it. -/
theorem serve_agree (hF : F.CoversRequest actor ep) (henv : ∀ n, ids (env n).uuid)
    (hd : Offered F d) (h : Agree F ids d d') :
    (server.serve env (.tenant actor ep) d').1 = (server.serve env (.tenant actor ep) d).1 ∧
      Agree F ids (server.serve env (.tenant actor ep) d).2
        (server.serve env (.tenant actor ep) d').2 := by
  have hbase : (agreement hd).base d d' := ⟨h, .refl⟩
  obtain ⟨hr, hafter⟩ := (agreement hd).serve henv (call_grounded hF) hbase
  exact ⟨hr, hafter.1⟩

/-- What a request writes lies within its footprint. -/
theorem serve_grown (hF : F.CoversRequest actor ep) (henv : ∀ n, ids (env n).uuid)
    (hd : Offered F d) : Grown F ids d (server.serve env (.tenant actor ep) d).2 := by
  have hbase : Agree F ids d d ∧ Grown F ids d d := ⟨.refl, .refl⟩
  exact ((agreement hd).serve henv (call_grounded hF) hbase).2.2

/-! ## Requests outside a footprint -/

variable {F' : Footprint} {ids' : UUID → Prop}

/-- No report is owned by both footprints. -/
def Footprint.Apart (F F' : Footprint) : Prop := ∀ t k, F'.owns t k = true → F.owns t k = false

theorem Footprint.Apart.holds (h : F.Apart F') {v : Version} (hdata : v.isData = true)
    (hv : F'.holds v = true) : F.holds v = false := by
  cases v with
  | report r => exact h _ _ hv
  | item x => exact h _ _ hv
  | attachment a => exact h _ _ hv
  | _ => cases hdata

/-- Rows of one identity are data together. -/
theorem isData_of_id {v v' : Version} (h : v.isData = true) (hid : v'.id = v.id) :
    v'.isData = true := by
  cases v <;> first
    | (cases h; done)
    | (cases v' <;> first
        | rfl
        | exact RowId.noConfusion hid)

/-- What grew within one footprint makes no difference to another. -/
theorem Grown.agree (h : Grown F' ids' d e) (hF : F.Apart F') (hids : ∀ u, ids' u → ¬ ids u) :
    Agree F ids d e := by
  induction h with
  | refl => exact .refl
  | @put e v _ hp ih =>
    refine ih.trans
      (agree_put (hF.holds hp.isData hp.holds) (fun x hx => ?_) fun hnone hdrawn => ?_)
    · exact hF.holds (isData_of_id hp.isData (Database.id_of_get hx)) (hp.old x hx)
    · -- a new row has an identifier that only the other footprint draws
      obtain ⟨u, hu, hid⟩ := hp.fresh hnone
      obtain ⟨u', hu', hid'⟩ := hdrawn
      have huu : u' = u := by
        rcases hid with hid | hid | hid <;> rcases hid' with hid' | hid' | hid' <;>
          cases hid.symm.trans hid' <;> rfl
      exact hids u hu (huu ▸ hu')

/-- And nothing but reports, items and attachments grows. -/
theorem Grown.rest (h : Grown F' ids' d e) {key : RowId}
    (hkey : ∀ v : Version, v.id = key → v.isData = false) :
    e.get key = d.get key := by
  induction h with
  | refl => rfl
  | @put e v _ hp ih =>
    rw [Database.get_put, if_neg, ih]
    intro hid
    exact absurd hp.isData (by rw [hkey v hid]; exact Bool.false_ne_true)

theorem Grown.offered_apart (h : Grown F' ids' d e) (hF : F.Apart F') (hd : Offered F d) :
    Offered F e := by
  intro i x hx hown
  -- the item was there before, and its category is no data, so it is still there
  have hsame : Agree F (fun _ => False) d e := h.agree hF fun _ _ hu => hu
  have hback : d.get (.item i) = some (.item x) := hsame.symm.get hx hown
  obtain ⟨v, hv, hF⟩ := hd i x hback hown
  refine ⟨v, ?_, hF⟩
  rw [h.rest fun w hw => ?_, hv]
  cases w <;> first
    | rfl
    | exact RowId.noConfusion hw

end

end ExpenseSaas
