import ExpenseSaas.Contract.Calls

/-!
# What no write ever changes

Rows never disappear, and some things about a row are settled for good: who and
what it belongs to, that it is deleted, that a report has left draft, that a
token is revoked or used. `kept` is that order on row versions, and
`kept_respected` says that every write of every call respects it. Nothing is
assumed of the run.
-/

namespace ExpenseSaas

open ReadCommitted Sql

/-- `r'` can be a later version of report `r`. -/
structure ReportKept (r r' : ExpenseReport) : Prop where
  tenantID : r'.tenantID = r.tenantID
  userID : r'.userID = r.userID
  deleted : r.deletedAt.isSome → r'.deletedAt.isSome ∧ r'.status = r.status
  left : r.status ≠ .draft → r'.status ≠ .draft

/-- `i'` can be a later version of item `i`. -/
structure ItemKept (i i' : ExpenseItem) : Prop where
  tenantID : i'.tenantID = i.tenantID
  reportID : i'.reportID = i.reportID
  deleted : i.deletedAt.isSome → i'.deletedAt.isSome

/-- `a'` can be a later version of attachment `a`. -/
structure AttachmentKept (a a' : Attachment) : Prop where
  tenantID : a'.tenantID = a.tenantID
  reportID : a'.reportID = a.reportID
  itemID : a'.itemID = a.itemID
  deleted : a.deletedAt.isSome → a'.deletedAt.isSome

/-- `x'` can be a later version of refresh token `x`. -/
structure RefreshTokenKept (x x' : RefreshToken) : Prop where
  userID : x'.userID = x.userID
  revoked : x.isRevoked = true → x'.isRevoked = true

/-- `x'` can be a later version of reset token `x`. -/
structure ResetTokenKept (x x' : PasswordResetToken) : Prop where
  userID : x'.userID = x.userID
  tokenHash : x'.tokenHash = x.tokenHash
  used : x.usedAt.isSome → x'.usedAt.isSome

/-- `v'` can be a later version of the row `v` is a version of. -/
def Version.Kept : Version → Version → Prop
  | .report r, .report r' => ReportKept r r'
  | .item i, .item i' => ItemKept i i'
  | .attachment a, .attachment a' => AttachmentKept a a'
  | .refreshToken x, .refreshToken x' => RefreshTokenKept x x'
  | .passwordResetToken x, .passwordResetToken x' => ResetTokenKept x x'
  | .tenant _, .tenant _ => True
  | .user _, .user _ => True
  | .membership _, .membership _ => True
  | .category _, .category _ => True
  | _, _ => False

theorem ReportKept.refl {r : ExpenseReport} : ReportKept r r := ⟨rfl, rfl, fun h => ⟨h, rfl⟩, id⟩

theorem ReportKept.trans {r r' r'' : ExpenseReport} (h : ReportKept r r') (h' : ReportKept r' r'') :
    ReportKept r r'' where
  tenantID := h'.tenantID.trans h.tenantID
  userID := h'.userID.trans h.userID
  deleted hd := ⟨(h'.deleted (h.deleted hd).1).1,
    (h'.deleted (h.deleted hd).1).2.trans (h.deleted hd).2⟩
  left hs := h'.left (h.left hs)

theorem Version.Kept.refl (v : Version) : v.Kept v := by
  cases v with
  | report r => exact ReportKept.refl
  | item i => exact ⟨rfl, rfl, fun h => h⟩
  | attachment a => exact ⟨rfl, rfl, rfl, fun h => h⟩
  | refreshToken x => exact ⟨rfl, fun h => h⟩
  | passwordResetToken x => exact ⟨rfl, rfl, fun h => h⟩
  | _ => trivial

theorem Version.Kept.trans {u v w : Version} (h : u.Kept v) (h' : v.Kept w) : u.Kept w := by
  cases u <;> cases v <;> first
    | exact h.elim
    | cases w <;> first
      | exact h'.elim
      | exact ReportKept.trans h h'
      | exact ⟨h'.1.trans h.1, h'.2.trans h.2, h'.3.trans h.3, fun hd => h'.4 (h.4 hd)⟩
      | exact ⟨h'.1.trans h.1, h'.2.trans h.2, fun hd => h'.3 (h.3 hd)⟩
      | exact ⟨h'.1.trans h.1, fun hd => h'.2 (h.2 hd)⟩
      | trivial

/-- **The order of row versions**: rows stay, and what is settled stays settled. -/
def kept : server.Order where
  le _ a b := ∀ v, a = some v → ∃ v', b = some v' ∧ v.Kept v'
  refl _ _ v hv := ⟨v, hv, .refl v⟩
  trans _ _ _ _ hab hbc v hv := by
    obtain ⟨v', hv', hk⟩ := hab v hv
    obtain ⟨v'', hv'', hk'⟩ := hbc v' hv'
    exact ⟨v'', hv'', hk.trans hk'⟩

/-! ## Reading a database by key -/

section

variable {d : Database} {r : ExpenseReport} {i : ExpenseItem} {a : Attachment} {k : UUID}

theorem id_of_server_get {k : RowId} {v : Version} (h : server.get d k = some v) : v.id = k :=
  Database.id_of_get h

theorem get_report : d.get (.report k) = some (.report r) ↔ d.reports.find k = some r := by
  simp [Database.get]

theorem get_report_none : d.get (.report k) = none ↔ d.reports.find k = none := by
  simp [Database.get]

theorem get_item_none : d.get (.item k) = none ↔ d.items.find k = none := by
  simp [Database.get]

theorem get_attachment_none : d.get (.attachment k) = none ↔ d.attachments.find k = none := by
  simp [Database.get]

theorem get_item : d.get (.item k) = some (.item i) ↔ d.items.find k = some i := by
  simp [Database.get]

theorem get_attachment : d.get (.attachment k) = some (.attachment a) ↔
    d.attachments.find k = some a := by
  simp [Database.get]

theorem get_refreshToken {x : RefreshToken} : d.get (.refreshToken k) = some (.refreshToken x) ↔
    d.refreshTokens.find k = some x := by
  simp [Database.get]

theorem get_user {u : User} : d.get (.user k) = some (.user u) ↔ d.users.find k = some u := by
  simp [Database.get]

end

/-- The order, for a write over a row that was there. -/
theorem kept_some {d : Database} {k : RowId} {x v : Version} (hx : d.get k = some x)
    (h : x.Kept v) : kept.le k (d.get k) (some v) := by
  intro y hy
  rw [hx] at hy
  cases hy
  exact ⟨v, rfl, h⟩

/-- And for a row that is new. -/
theorem kept_none {d : Database} {k : RowId} {v : Version} (hx : d.get k = none) :
    kept.le k (d.get k) (some v) := by
  intro y hy
  rw [hx] at hy
  cases hy

section

variable {r₀ r₁ : ExpenseReport} {actor : Actor} {e : Endpoint}

/-- No transition leads to draft. -/
theorem Transition.left (h : Transition actor e r₀ r₁) : r₁.status ≠ .draft := by
  cases h with
  | submit hu h =>
    obtain ⟨_, _, _, rfl⟩ := submit_ok h
    exact nofun
  | approve h =>
    obtain ⟨_, _, rfl⟩ := approve_ok h
    exact nofun
  | reject h =>
    obtain ⟨_, _, _, rfl⟩ := reject_ok h
    exact nofun
  | pay h =>
    obtain ⟨_, _, rfl⟩ := markAsPaid_ok h
    exact nofun

/-- A transition keeps what identifies the report and its version. -/
theorem Transition.key (h : Transition actor e r₀ r₁) :
    r₁.reportID = r₀.reportID ∧ r₁.tenantID = r₀.tenantID ∧ r₁.updatedAt = r₀.updatedAt := by
  cases h with
  | submit hu h =>
    obtain ⟨_, _, _, rfl⟩ := submit_ok h
    exact ⟨rfl, rfl, rfl⟩
  | approve h =>
    obtain ⟨_, _, rfl⟩ := approve_ok h
    exact ⟨rfl, rfl, rfl⟩
  | reject h =>
    obtain ⟨_, _, _, rfl⟩ := reject_ok h
    exact ⟨rfl, rfl, rfl⟩
  | pay h =>
    obtain ⟨_, _, rfl⟩ := markAsPaid_ok h
    exact ⟨rfl, rfl, rfl⟩

end

variable {C : World server → Action server → Prop} {d₀ : Database} {w : World server}

/-- A change to a report is a later version of the row it was made from. -/
theorem ReportChange.kept {actor : Actor} {tr : Trace} {snap cur : Database} {clock o : Oracle}
    {e : Endpoint} {r : ExpenseReport} (h : ReportChange actor tr snap cur clock o e r) :
    cur.reports.find r.reportID = none ∨
      ∃ x, cur.reports.find r.reportID = some x ∧ ReportKept x r := by
  cases h with
  | create hnone hr => exact Or.inl hnone
  | @update k params r₀ x r hr hu hd hv hc hx hid hxv hs =>
    obtain ⟨_, _, rfl⟩ := setReport_ok hs
    exact Or.inr ⟨x, Table.find_of_mem hx, rfl, rfl, fun h => ⟨h, rfl⟩, id⟩
  | @status e k v r₀ r₁ x r hver hr hv hT hc hx hid hxv hs =>
    obtain ⟨_, _, _, _, rfl⟩ := setReportStatus_ok hs
    simp only [reportIs, Bool.and_eq_true, Option.isNone_iff_eq_none] at hid
    exact Or.inr ⟨x, Table.find_of_mem hx, rfl, rfl, by simp [hid.2], fun _ => hT.left⟩
  | @delete e k x he hd hx hid =>
    simp only [reportIs, Bool.and_eq_true, Option.isNone_iff_eq_none] at hid
    exact Or.inr ⟨x, Table.find_of_mem hx, rfl, rfl, by simp [hid.2], id⟩
  | @total e k x r hp hx ht hk hs =>
    rw [setReportTotalAmount_ok hs]
    exact Or.inr ⟨x, Table.find_of_mem hx, rfl, rfl, fun h => ⟨h, rfl⟩, id⟩

theorem ItemChange.kept {actor : Actor} {tr : Trace} {snap cur : Database} {clock o : Oracle}
    {e : Endpoint} {i : ExpenseItem} (h : ItemChange actor tr snap cur clock o e i) :
    cur.items.find i.itemID = none ∨ ∃ x, cur.items.find i.itemID = some x ∧ ItemKept x i := by
  cases h with
  | create hp ht hnone hi => exact Or.inl hnone
  | @edit p x i hp ht hx hid hs =>
    obtain ⟨_, rfl⟩ := setItem_ok hs
    exact Or.inr ⟨x, Table.find_of_mem hx, rfl, rfl, id⟩
  | @delete k x hp hx hid => exact Or.inr ⟨x, Table.find_of_mem hx, rfl, rfl, fun _ => rfl⟩

theorem AttachmentChange.kept {actor : Actor} {tr : Trace} {snap cur : Database}
    {clock o : Oracle} {e : Endpoint} {a : Attachment}
    (h : AttachmentChange actor tr snap cur clock o e a) :
    cur.attachments.find a.attachmentID = none ∨
      ∃ x, cur.attachments.find a.attachmentID = some x ∧ AttachmentKept x a := by
  cases h with
  | create hp ht hnone ha => exact Or.inl hnone
  | @delete k x hp hx hid => exact Or.inr ⟨x, Table.find_of_mem hx, rfl, rfl, rfl, fun _ => rfl⟩

/-- **Every write of every call respects the order.** -/
theorem kept_respected : kept.Respected C d₀ := by
  intro w i o s q t v hw _ hs hv
  cases v with
  | report r =>
    obtain ⟨actor, e, snap, o', _, hc⟩ := report_change hw hs hv
    rcases hc.kept with hnone | ⟨x, hx, hk⟩
    · exact kept_none (get_report_none.mpr hnone)
    · exact kept_some (get_report.mpr hx) hk
  | item x =>
    obtain ⟨actor, e, snap, o', _, hc⟩ := item_change hw hs hv
    rcases hc.kept with hnone | ⟨y, hy, hk⟩
    · exact kept_none (get_item_none.mpr hnone)
    · exact kept_some (get_item.mpr hy) hk
  | attachment x =>
    obtain ⟨actor, e, snap, o', _, hc⟩ := attachment_change hw hs hv
    rcases hc.kept with hnone | ⟨y, hy, hk⟩
    · exact kept_none (get_attachment_none.mpr hnone)
    · exact kept_some (get_attachment.mpr hy) hk
  | refreshToken x =>
    obtain ⟨snap, o', hwr⟩ := hv.writes
    have hwr : RefreshTokenWrite snap (s.view w.db) t.clock o' q x := refreshToken_writes hwr
    have key : ∀ {y : RefreshToken}, y ∈ (s.view w.db).refreshTokens.rows →
        (s.view w.db).get (.refreshToken y.jti) = some (.refreshToken y) :=
      fun hy => (refreshTokenRows.mem_rows _ _).mp hy
    cases hwr with
    | create => exact kept_none (hv.fresh rfl)
    | @revoke y hy => exact kept_some (x := .refreshToken y) (key hy) ⟨rfl, fun _ => rfl⟩
    | @revokeAll y hy hr => exact kept_some (x := .refreshToken y) (key hy) ⟨rfl, fun _ => rfl⟩
  | passwordResetToken x =>
    obtain ⟨snap, o', hwr⟩ := hv.writes
    have hwr : ResetTokenWrite snap (s.view w.db) t.clock o' q x := resetToken_writes hwr
    have key : ∀ {y : PasswordResetToken}, y ∈ (s.view w.db).passwordResetTokens.rows →
        (s.view w.db).get (.passwordResetToken y.id) = some (.passwordResetToken y) :=
      fun hy => (passwordResetTokenRows.mem_rows _ _).mp hy
    cases hwr with
    | create => exact kept_none (hv.fresh rfl)
    | @markUsed y hy =>
      exact kept_some (x := .passwordResetToken y) (key hy) ⟨rfl, rfl, fun _ => rfl⟩
  | _ =>
    intro y hy
    refine ⟨_, rfl, ?_⟩
    have hid := id_of_server_get hy
    cases y <;> trivial

end ExpenseSaas
