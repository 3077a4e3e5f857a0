import ExpenseSaas.Runs.Versions

/-!
# Schedules

To show that a state is reached it is enough to give a schedule and to run it.
`uniqueTimes` is a check on the actions of a schedule that implies
`DistinctNow`, and `turns` and `Oracle.at` are how schedules are written down:
session `i` takes its next `n` steps, at the times from `t` on.

`sample` is the database they start from: one tenant with a member who owns a
draft of one item, an approver and an accountant.
-/

namespace ExpenseSaas

open ReadCommitted Sql

/-- Surroundings in which nothing fails, at time `t`. -/
def Oracle.at (t : Timestamp) : Oracle where
  now := t
  today := ⟨2024, 1, 1⟩
  uuid := t
  rank := id
  lower := id
  random := ""
  salt := 0
  failure := none

/-- The next `n` steps of session `i`, one a microsecond from `t` on. -/
def turns (i n : Nat) (t : Timestamp) : List (Action server) :=
  (List.range n).map fun j => .step i (.at (t + j))

/-- Every step is taken at a time that no transaction began at and no old row is stamped with. -/
def uniqueTimes (d₀ : Database) (w : World server) : Action server → Bool
  | .step _ o => w.begun.all (fun c => c.now ≠ o.now)
      && d₀.reports.rows.all (fun r => r.updatedAt ≠ o.now)
      && d₀.items.rows.all (fun i => i.updatedAt ≠ o.now)
  | _ => true

theorem distinctNow_of_uniqueTimes {d₀ : Database} (w : World server) (a : Action server)
    (h : uniqueTimes d₀ w a = true) : DistinctNow d₀ w a := by
  cases a with
  | step i o =>
    intro s k _ _
    simp only [uniqueTimes, Bool.and_eq_true, List.all_eq_true, decide_eq_true_eq] at h
    obtain ⟨⟨hbegun, hreports⟩, hitems⟩ := h
    refine ⟨hbegun, fun k v hv hx => ?_⟩
    obtain rfl := id_of_server_get hv
    cases v with
    | report r => exact hreports r ((reportRows.mem_rows _ _).mpr hv) (Option.some.inj hx)
    | item x => exact hitems x ((itemRows.mem_rows _ _).mpr hv) (Option.some.inj hx)
    | _ => cases hx
  | _ => trivial

/-! ## A small tenant -/

namespace Sample

def owner : Actor := ⟨20, 10, .member⟩

def approver : Actor := ⟨21, 10, .approver⟩

def accountant : Actor := ⟨22, 10, .accounting⟩

/-- A draft of the owner's, last changed at time 5. -/
def report : ExpenseReport :=
  { (default : ExpenseReport) with
    reportID := 1, tenantID := 10, userID := 20, title := "trip", totalAmount := 100
    createdAt := 5, updatedAt := 5 }

/-- Its one item. -/
def item : ExpenseItem :=
  { (default : ExpenseItem) with
    itemID := 2, reportID := 1, tenantID := 10, amount := 100, categoryID := 30
    description := "train", createdAt := 5, updatedAt := 5 }

def category : Category :=
  { (default : Category) with categoryID := 30, isActive := true }

/-- An item the owner adds. -/
def newItem : CreateItemParams :=
  ⟨⟨2024, 1, 1⟩, 7, 30, "taxi", by decide, by decide, by decide⟩

/-- The refresh token the owner holds. -/
def claims : RefreshTokenClaims := ⟨20, 50, 0, 1000000⟩

/-- The stored side of it. -/
def token : RefreshToken := ⟨50, 20, .ofRefreshToken (.signed claims), false, 1000000, 0⟩

/-- A password reset the owner has asked for. -/
def reset : PasswordResetToken := ⟨60, 20, .ofText "reset", 1000000, none, 0⟩

def database : Database where
  tenants := Table.empty.put ⟨10, "company", 0, 0⟩
  users := ((Table.empty.put ⟨20, "owner@example", "owner", .argon2id "old" 0, 0, 0⟩).put
    ⟨21, "approver@example", "approver", .argon2id "old" 0, 0, 0⟩).put
      ⟨22, "accountant@example", "accountant", .argon2id "old" 0, 0, 0⟩
  memberships := ((Table.empty.put ⟨10, 20, .member, 0, 0⟩).put ⟨10, 21, .approver, 0, 0⟩).put
    ⟨10, 22, .accounting, 0, 0⟩
  categories := Table.empty.put category
  reports := Table.empty.put report
  items := Table.empty.put item
  attachments := Table.empty
  refreshTokens := Table.empty.put token
  passwordResetTokens := Table.empty.put reset

end Sample

end ExpenseSaas
