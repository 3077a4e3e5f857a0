import ExpenseSaas.ReadCommitted.TwoRuns
import ExpenseSaas.Postgres.Writes
import ExpenseSaas.Server

/-!
# Footprints

A footprint says which rows a request may depend on: all users, the tenants and
memberships of some tenants, some categories, and the reports it owns with their
items and attachments. `Agree` says that two databases have the same rows within
it, in the same order, and that of the identifiers that may still be drawn the
same ones are taken.

A version that is put into both stays within the footprint or outside it, so the
databases go on agreeing.
-/

namespace ExpenseSaas

open ReadCommitted

structure Footprint where
  /-- The reports, by tenant and identifier. -/
  owns : UUID → UUID → Bool
  tenant : UUID → Bool
  /-- The categories, by tenant. -/
  category : Option UUID → Bool

namespace Footprint

/-- The row is within the footprint. -/
def holds (F : Footprint) : Version → Bool
  | .tenant r => F.tenant r.tenantID
  | .user _ => true
  | .membership m => F.tenant m.tenantID
  | .category c => F.category c.tenantID
  | .report r => F.owns r.tenantID r.reportID
  | .item i => F.owns i.tenantID i.reportID
  | .attachment a => F.owns a.tenantID a.reportID
  | .refreshToken _ => false
  | .passwordResetToken _ => false

/-- There is a row under the key, within the footprint. -/
def Inside (F : Footprint) (d : Database) (k : RowId) : Prop :=
  ∃ v, d.get k = some v ∧ F.holds v = true

end Footprint

/-- The rows of one table within the footprint are the same, and in the same order. -/
def SameRows {R : Type} (F : Footprint) (T : Relation R) (d d' : Database) : Prop :=
  T.filter (fun r => F.holds (T.wrap r)) d = T.filter (fun r => F.holds (T.wrap r)) d'

/-- The row has an identifier among `ids`. -/
def RowId.Drawn (ids : UUID → Prop) (k : RowId) : Prop :=
  ∃ u, ids u ∧ (k = .report u ∨ k = .item u ∨ k = .attachment u)

/-- The databases agree within `F`, and on which of the identifiers `ids` are taken. -/
structure Agree (F : Footprint) (ids : UUID → Prop) (d d' : Database) : Prop where
  tenants : SameRows F tenantRows d d'
  users : SameRows F userRows d d'
  memberships : SameRows F membershipRows d d'
  categories : SameRows F categoryRows d d'
  reports : SameRows F reportRows d d'
  items : SameRows F itemRows d d'
  attachments : SameRows F attachmentRows d d'
  drawn : ∀ k : RowId, k.Drawn ids → (d.get k).isSome = (d'.get k).isSome

section

variable {F : Footprint} {ids : UUID → Prop} {d d' e : Database} {v : Version} {k : RowId}

theorem Agree.refl : Agree F ids d d :=
  ⟨rfl, rfl, rfl, rfl, rfl, rfl, rfl, fun _ _ => rfl⟩

theorem Agree.symm (h : Agree F ids d d') : Agree F ids d' d where
  tenants := h.tenants.symm
  users := h.users.symm
  memberships := h.memberships.symm
  categories := h.categories.symm
  reports := h.reports.symm
  items := h.items.symm
  attachments := h.attachments.symm
  drawn k hk := (h.drawn k hk).symm

theorem Agree.trans (h : Agree F ids d d') (h' : Agree F ids d' e) : Agree F ids d e where
  tenants := h.tenants.trans h'.tenants
  users := h.users.trans h'.users
  memberships := h.memberships.trans h'.memberships
  categories := h.categories.trans h'.categories
  reports := h.reports.trans h'.reports
  items := h.items.trans h'.items
  attachments := h.attachments.trans h'.attachments
  drawn k hk := (h.drawn k hk).trans (h'.drawn k hk)

/-! ## One table -/

section

variable {R : Type} {T : Relation R}

/-- A selection within the footprint is the same. -/
theorem SameRows.filter (h : SameRows F T d d') {sel : R → Bool}
    (hsel : ∀ r, sel r = true → F.holds (T.wrap r) = true) : T.filter sel d = T.filter sel d' := by
  have hin : ∀ e : Database, T.filter sel e = (T.filter (fun r => F.holds (T.wrap r)) e).filter sel := by
    intro e
    unfold Relation.filter
    rw [List.filter_filter]
    refine List.filter_congr fun r _ => ?_
    cases hr : sel r with
    | false => rfl
    | true => rw [hsel r hr, Bool.and_true]
  rw [hin d, hin d', h]

theorem SameRows.first (h : SameRows F T d d') {sel : R → Bool}
    (hsel : ∀ r, sel r = true → F.holds (T.wrap r) = true) : T.first sel d = T.first sel d' := by
  unfold Relation.first
  rw [h.filter hsel]

/-- A row within the footprint is there in both. -/
theorem SameRows.get (h : SameRows F T d d') {r : R} (hr : d.get (T.id r) = some (T.wrap r))
    (hF : F.holds (T.wrap r) = true) : d'.get (T.id r) = some (T.wrap r) := by
  have hmem : r ∈ T.filter (fun r => F.holds (T.wrap r)) d :=
    List.mem_filter.mpr ⟨(T.mem_rows _ _).mpr hr, hF⟩
  rw [h] at hmem
  exact (T.mem_rows _ _).mp (List.mem_filter.mp hmem).1

end

/-- **What is within the footprint** is the same in both. -/
theorem Agree.get (h : Agree F ids d d') (hk : d.get k = some v) (hF : F.holds v = true) :
    d'.get k = some v := by
  obtain rfl := Database.id_of_get hk
  cases v with
  | tenant r => exact h.tenants.get (T := tenantRows) hk hF
  | user r => exact h.users.get (T := userRows) hk hF
  | membership r => exact h.memberships.get (T := membershipRows) hk hF
  | category r => exact h.categories.get (T := categoryRows) hk hF
  | report r => exact h.reports.get (T := reportRows) hk hF
  | item r => exact h.items.get (T := itemRows) hk hF
  | attachment r => exact h.attachments.get (T := attachmentRows) hk hF
  | _ => cases hF

/-- So is what lies under a key of which that is known. -/
theorem Agree.get_eq (h : Agree F ids d d') (hk : F.Inside d k) : d'.get k = d.get k := by
  obtain ⟨v, hv, hF⟩ := hk
  rw [hv, h.get hv hF]

theorem Footprint.Inside.put (hk : F.Inside d k) (hv : F.holds v = true) : F.Inside (d.put v) k := by
  obtain ⟨u, hu, hF⟩ := hk
  by_cases hid : v.id = k
  · exact ⟨v, by rw [Database.get_put, if_pos hid], hv⟩
  · exact ⟨u, by rw [Database.get_put, if_neg hid, hu], hF⟩

/-! ## Putting a version -/

section

variable {R κ : Type} [DecidableEq κ] {key : R → κ} {T : Relation R} {r : R} {t : Database → Table R key}

/-- The relation's rows are those of a table of the database. -/
structure Relation.InTable (T : Relation R) (key : R → κ) (t : Database → Table R key) : Prop where
  rows : ∀ d, T.rows d = (t d).rows
  put : ∀ d r, t (d.put (T.wrap r)) = (t d).put r
  id : ∀ x r, key x = key r → T.id x = T.id r

/-- The rows of a table within the footprint, after a version within it was put. -/
theorem filter_put (hT : T.InTable key t) (hr : F.holds (T.wrap r) = true)
    (hold : ∀ x, d.get (T.id r) = some x → F.holds x = true) :
    T.filter (fun r => F.holds (T.wrap r)) (d.put (T.wrap r)) =
      upsert key r (T.filter (fun r => F.holds (T.wrap r)) d) := by
  unfold Relation.filter
  rw [hT.rows, hT.put, hT.rows]
  show (upsert key r (t d).rows).filter _ = _
  refine filter_upsert hr fun x hx hk => hold _ ?_
  rw [← hT.id x r hk]
  exact (T.mem_rows _ _).mp (hT.rows d ▸ hx)

/-- Outside the footprint, they are as they were. -/
theorem sameRows_put (hT : T.InTable key t) (hr : F.holds (T.wrap r) = false)
    (hold : ∀ x, d.get (T.id r) = some x → F.holds x = false) : SameRows F T d (d.put (T.wrap r)) := by
  unfold SameRows Relation.filter
  rw [hT.rows, hT.rows (d.put _), hT.put]
  symm
  show (upsert key r (t d).rows).filter _ = _
  refine filter_upsert_of_not hr fun x hx hk => hold _ ?_
  rw [← hT.id x r hk]
  exact (T.mem_rows _ _).mp (hT.rows d ▸ hx)

end

theorem tenantRows_inTable : tenantRows.InTable Tenant.tenantID Database.tenants :=
  ⟨fun _ => rfl, fun _ _ => rfl, fun _ _ h => congrArg RowId.tenant h⟩

theorem userRows_inTable : userRows.InTable User.userID Database.users :=
  ⟨fun _ => rfl, fun _ _ => rfl, fun _ _ h => congrArg RowId.user h⟩

theorem membershipRows_inTable : membershipRows.InTable TenantMembership.userID Database.memberships :=
  ⟨fun _ => rfl, fun _ _ => rfl, fun _ _ h => congrArg RowId.membership h⟩

theorem categoryRows_inTable : categoryRows.InTable Category.categoryID Database.categories :=
  ⟨fun _ => rfl, fun _ _ => rfl, fun _ _ h => congrArg RowId.category h⟩

theorem reportRows_inTable : reportRows.InTable ExpenseReport.reportID Database.reports :=
  ⟨fun _ => rfl, fun _ _ => rfl, fun _ _ h => congrArg RowId.report h⟩

theorem itemRows_inTable : itemRows.InTable ExpenseItem.itemID Database.items :=
  ⟨fun _ => rfl, fun _ _ => rfl, fun _ _ h => congrArg RowId.item h⟩

theorem attachmentRows_inTable : attachmentRows.InTable Attachment.attachmentID Database.attachments :=
  ⟨fun _ => rfl, fun _ _ => rfl, fun _ _ h => congrArg RowId.attachment h⟩

/-- Both databases take the same version of a row within the footprint, or of a new one. -/
theorem Agree.put (h : Agree F ids d d') (hv : F.holds v = true)
    (hold : ∀ x, d.get v.id = some x → F.holds x = true) (hold' : ∀ x, d'.get v.id = some x → F.holds x = true) :
    Agree F ids (d.put v) (d'.put v) := by
  have hdrawn : ∀ k : RowId, k.Drawn ids → ((d.put v).get k).isSome = ((d'.put v).get k).isSome := by
    intro k hk
    rw [Database.get_put, Database.get_put]
    split
    · rfl
    · exact h.drawn k hk
  have hsame : ∀ {R : Type} {key : R → UUID} {T : Relation R} {r : R} {t : Database → Table R key},
      T.InTable key t → v = T.wrap r → SameRows F T d d' → SameRows F T (d.put v) (d'.put v) := by
    intro R key T r t hT hvr hs
    subst hvr
    rw [T.id_wrap] at hold hold'
    unfold SameRows
    rw [filter_put hT hv hold, filter_put hT hv hold', hs]
  cases v with
  | tenant r => exact { h with tenants := hsame tenantRows_inTable rfl h.tenants, drawn := hdrawn }
  | user r => exact { h with users := hsame userRows_inTable rfl h.users, drawn := hdrawn }
  | membership r => exact { h with memberships := hsame membershipRows_inTable rfl h.memberships, drawn := hdrawn }
  | category r => exact { h with categories := hsame categoryRows_inTable rfl h.categories, drawn := hdrawn }
  | report r => exact { h with reports := hsame reportRows_inTable rfl h.reports, drawn := hdrawn }
  | item r => exact { h with items := hsame itemRows_inTable rfl h.items, drawn := hdrawn }
  | attachment r => exact { h with attachments := hsame attachmentRows_inTable rfl h.attachments, drawn := hdrawn }
  | _ => cases hv

/-- A version of a row outside the footprint makes no difference. -/
theorem agree_put (hv : F.holds v = false) (hold : ∀ x, d.get v.id = some x → F.holds x = false)
    (hnew : d.get v.id = none → ¬ v.id.Drawn ids) : Agree F ids d (d.put v) := by
  have hdrawn : ∀ k : RowId, k.Drawn ids → (d.get k).isSome = ((d.put v).get k).isSome := by
    intro k hk
    rw [Database.get_put]
    split
    · rename_i hid
      subst hid
      cases hd : d.get v.id with
      | some x => rfl
      | none => exact absurd hk (hnew hd)
    · rfl
  have hsame : ∀ {R : Type} {key : R → UUID} {T : Relation R} {r : R} {t : Database → Table R key},
      T.InTable key t → v = T.wrap r → SameRows F T d (d.put v) := by
    intro R key T r t hT hvr
    subst hvr
    rw [T.id_wrap] at hold
    exact sameRows_put hT hv hold
  have h : Agree F ids d d := Agree.refl
  cases v with
  | tenant r => exact { h with tenants := hsame tenantRows_inTable rfl, drawn := hdrawn }
  | user r => cases hv
  | membership r => exact { h with memberships := hsame membershipRows_inTable rfl, drawn := hdrawn }
  | category r => exact { h with categories := hsame categoryRows_inTable rfl, drawn := hdrawn }
  | report r => exact { h with reports := hsame reportRows_inTable rfl, drawn := hdrawn }
  | item r => exact { h with items := hsame itemRows_inTable rfl, drawn := hdrawn }
  | attachment r => exact { h with attachments := hsame attachmentRows_inTable rfl, drawn := hdrawn }
  | _ => exact { h with drawn := hdrawn }

end

end ExpenseSaas
