import Mathlib.Algebra.Group.Nat.Defs
import Mathlib.Algebra.Ring.Int.Defs
import ExpenseSaas.Domain.Entity
import ExpenseSaas.Domain.Errors
import ExpenseSaas.Go.Strings
import ExpenseSaas.ReadCommitted.Table
import ExpenseSaas.ReadCommitted.Machine

/-!
# The database

The tables of `db/migrations`, as the rows the statements see. Nothing is ever
removed from a table: deletion sets `deleted_at`. Row level security is left
out; each statement here carries only the conditions it is written with.

`Version` is a row version of any table and `RowId` the identity of its row, so
that a transaction's uncommitted versions are one list. `Relation` says, for one
table, how its rows sit in the database.
-/

namespace ExpenseSaas

open ReadCommitted

/--
What the surroundings decide at a step: clocks, generated identifiers, the order
`ORDER BY` leaves open, the case mapping of the locale, and whether a call to
something other than the database fails.
-/
structure Oracle where
  now : Timestamp
  /-- The date of `now` in the session's time zone. -/
  today : Date
  uuid : UUID
  /-- Which of two rows that the `ORDER BY` does not tell apart comes first. -/
  rank : UUID → Nat
  lower : Char → Char
  /-- Random text, and random salt. -/
  random : String
  salt : Nat
  /-- The error of a call to the outside, if it fails. -/
  failure : Option String

/-! ## Column types -/

/-- `int32(n)` in Go: the low 32 bits. -/
def int32 (n : Int) : Int := Int.bmod n (2 ^ 32)

/-- A value for an `INTEGER` column, or `::int`. -/
def int4 (n : Int) : Except SqlError Int :=
  if -2 ^ 31 ≤ n ∧ n < 2 ^ 31 then .ok n else .error .numericValueOutOfRange

/-- A string as a text parameter: it has to be valid UTF-8. -/
def utf8 (s : Go.Str) : Except SqlError String :=
  match Go.decode s with
  | some t => .ok t
  | none => .error .characterNotInRepertoire

/-- A text value: anything without the zero byte. -/
def text (s : String) : Except SqlError String :=
  if s.toList.any (fun c => c.toNat = 0) then .error .characterNotInRepertoire else .ok s

/-- A value for a `VARCHAR(n)` column: what is too long must be all blanks, which are cut off. -/
def varchar (n : Nat) (s : String) : Except SqlError String := do
  let s ← text s
  if s.toList.length ≤ n then .ok s
  else if (s.toList.drop n).all (fun c => c = ' ') then .ok (String.ofList (s.toList.take n))
  else .error .stringDataRightTruncation

/-- A nullable `VARCHAR(n)` column. -/
def varcharNull (n : Nat) : Option String → Except SqlError (Option String)
  | none => .ok none
  | some s => (varchar n s).map some

/-- A `CHECK` constraint. -/
def check (b : Bool) : Except SqlError Unit := if b then .ok () else .error .checkViolation

/-- A foreign key: the row it names exists. -/
def references (b : Bool) : Except SqlError Unit := if b then .ok () else .error .foreignKeyViolation

section

variable {α β : Type} {b : Bool} {u : Unit}

@[simp] theorem check_eq_ok : check b = .ok u ↔ b = true := by
  unfold check
  split <;> simp_all

theorem utf8_eq_ok {s : Go.Str} {t : String} : utf8 s = .ok t ↔ s = Go.lit t := by
  rw [← Go.decode_eq_some]
  unfold utf8
  cases Go.decode s <;> simp

theorem text_eq_ok {s t : String} : text s = .ok t ↔ (∀ c ∈ s.toList, c.toNat ≠ 0) ∧ t = s := by
  have hall : (∀ c ∈ s.toList, c.toNat ≠ 0) ↔ ¬ (s.toList.any fun c => c.toNat = 0) = true := by
    simp
  unfold text
  rw [hall]
  split
  · rename_i hzero
    exact iff_of_false (fun h => by cases h) fun h => h.1 hzero
  · rename_i hnone
    rw [Except.ok.injEq, eq_comm]
    exact (and_iff_right hnone).symm

@[simp] theorem references_eq_ok : references b = .ok u ↔ b = true := by
  unfold references
  split <;> simp_all

end

/-! ## Tables -/

/-- All tables. -/
structure Database where
  tenants : Table Tenant Tenant.tenantID
  users : Table User User.userID
  /-- `user_id` is unique, so it identifies the row as well as the pair that is the key. -/
  memberships : Table TenantMembership TenantMembership.userID
  categories : Table Category Category.categoryID
  reports : Table ExpenseReport ExpenseReport.reportID
  items : Table ExpenseItem ExpenseItem.itemID
  attachments : Table Attachment Attachment.attachmentID
  refreshTokens : Table RefreshToken RefreshToken.jti
  passwordResetTokens : Table PasswordResetToken PasswordResetToken.id

/-- The identity of a row. -/
inductive RowId where
  | tenant (id : UUID)
  | user (id : UUID)
  | membership (id : UUID)
  | category (id : UUID)
  | report (id : UUID)
  | item (id : UUID)
  | attachment (id : UUID)
  | refreshToken (id : UUID)
  | passwordResetToken (id : UUID)
  deriving DecidableEq, Repr

/-- A version of a row. -/
inductive Version where
  | tenant (r : Tenant)
  | user (r : User)
  | membership (r : TenantMembership)
  | category (r : Category)
  | report (r : ExpenseReport)
  | item (r : ExpenseItem)
  | attachment (r : Attachment)
  | refreshToken (r : RefreshToken)
  | passwordResetToken (r : PasswordResetToken)
  deriving DecidableEq, Repr

/-- The row a version is a version of. -/
def Version.id : Version → RowId
  | .tenant r => .tenant r.tenantID
  | .user r => .user r.userID
  | .membership r => .membership r.userID
  | .category r => .category r.categoryID
  | .report r => .report r.reportID
  | .item r => .item r.itemID
  | .attachment r => .attachment r.attachmentID
  | .refreshToken r => .refreshToken r.jti
  | .passwordResetToken r => .passwordResetToken r.id

namespace Database

/-- A database without a row. -/
def empty : Database :=
  ⟨.empty, .empty, .empty, .empty, .empty, .empty, .empty, .empty, .empty⟩

instance : Inhabited Database := ⟨empty⟩

/-- Make `v` the current version of its row. -/
def put (d : Database) : Version → Database
  | .tenant r => { d with tenants := d.tenants.put r }
  | .user r => { d with users := d.users.put r }
  | .membership r => { d with memberships := d.memberships.put r }
  | .category r => { d with categories := d.categories.put r }
  | .report r => { d with reports := d.reports.put r }
  | .item r => { d with items := d.items.put r }
  | .attachment r => { d with attachments := d.attachments.put r }
  | .refreshToken r => { d with refreshTokens := d.refreshTokens.put r }
  | .passwordResetToken r => { d with passwordResetTokens := d.passwordResetTokens.put r }

/-- The current version of a row. -/
def get (d : Database) : RowId → Option Version
  | .tenant k => (d.tenants.find k).map .tenant
  | .user k => (d.users.find k).map .user
  | .membership k => (d.memberships.find k).map .membership
  | .category k => (d.categories.find k).map .category
  | .report k => (d.reports.find k).map .report
  | .item k => (d.items.find k).map .item
  | .attachment k => (d.attachments.find k).map .attachment
  | .refreshToken k => (d.refreshTokens.find k).map .refreshToken
  | .passwordResetToken k => (d.passwordResetTokens.find k).map .passwordResetToken

theorem get_put (d : Database) (v : Version) (k : RowId) :
    get (put d v) k = if v.id = k then some v else get d k := by
  cases v <;> cases k <;> simp only [put, get, Version.id, reduceCtorEq, if_false] <;>
    rw [Table.find_put] <;> split <;> simp_all

theorem id_of_get {d : Database} {k : RowId} {v : Version} (h : d.get k = some v) : v.id = k := by
  cases k <;> simp only [get, Option.map_eq_some_iff] at h <;> obtain ⟨r, hr, rfl⟩ := h <;>
    exact congrArg _ (Table.key_of_find hr)

/-- The row would break a primary key or another unique index. -/
def taken (d : Database) (v : Version) : Bool :=
  (d.get v.id).isSome || match v with
    | .user r => d.users.rows.any fun x => x.email = r.email
    | _ => false

end Database

/-- Two row versions that cannot both become current: one row, or one e-mail address. -/
def Version.clash (v w : Version) : Bool :=
  v.id = w.id || match v, w with
    | .user x, .user y => x.email = y.email
    | _, _ => false

/-! ## One table in the database -/

/-- Where the rows of type `R` live. -/
structure Relation (R : Type) where
  rows : Database → List R
  id : R → RowId
  wrap : R → Version
  unwrap : Version → Option R
  id_wrap : ∀ r, (wrap r).id = id r
  unwrap_wrap : ∀ v r, unwrap v = some r ↔ v = wrap r
  mem_rows : ∀ d r, r ∈ rows d ↔ d.get (id r) = some (wrap r)

namespace Relation

variable {R β : Type} (T : Relation R)

/-- The row under an identity. -/
def find (d : Database) (k : RowId) : Option R := (d.get k).bind T.unwrap

theorem find_eq_some {d : Database} {k : RowId} {r : R} :
    T.find d k = some r ↔ d.get k = some (T.wrap r) := by
  simp only [find, Option.bind_eq_some_iff, T.unwrap_wrap]
  exact ⟨fun ⟨v, hv, h⟩ => h ▸ hv, fun h => ⟨_, h, rfl⟩⟩

/-- The rows that satisfy `p`. -/
def filter (p : R → Bool) (d : Database) : List R := (T.rows d).filter p

/-- The first row that satisfies `p`. -/
def first (p : R → Bool) (d : Database) : Option R := (T.filter p d).head?

theorem mem_of_first {p : R → Bool} {d : Database} {r : R} (h : T.first p d = some r) :
    r ∈ T.rows d ∧ p r = true := List.mem_filter.mp (List.mem_of_mem_head? h)

/-- `INSERT ... RETURNING *`. -/
def insert [Inhabited R] (row : Database → Oracle → Oracle → Except SqlError R) :
    Sem Database Oracle Version RowId SqlError R :=
  .insert (fun d clock o => (row d clock o).map T.wrap) fun v => (T.unwrap v).getD default

/-- What an update makes of the current version of a row, if its `WHERE` still holds. -/
def apply (cond : R → Bool) (set : Database → Database → Oracle → R → Except SqlError R)
    (snap cur : Database) (clock : Oracle) (k : RowId) : Option (Except SqlError Version) :=
  match T.find cur k with
  | none => none
  | some r => if cond r then some ((set snap cur clock r).map T.wrap) else none

/--
`UPDATE ... SET set WHERE cond`. The rows are chosen in the snapshot; `cond` is
asked again of the current version, and `set` may read the snapshot too.
-/
def update (cond : R → Bool) (set : Database → Database → Oracle → R → Except SqlError R)
    (resp : List R → β) : Sem Database Oracle Version RowId SqlError β :=
  .update (fun snap => (T.filter cond snap).map T.id) (T.apply cond set)
    (fun vs => resp (vs.filterMap T.unwrap))

theorem apply_eq_some {cond : R → Bool}
    {set : Database → Database → Oracle → R → Except SqlError R} {snap cur : Database}
    {clock : Oracle} {k : RowId} {v : Version} (h : T.apply cond set snap cur clock k = some (.ok v)) :
    ∃ r r', cur.get k = some (T.wrap r) ∧ cond r = true ∧ set snap cur clock r = .ok r' ∧
      v = T.wrap r' := by
  unfold apply at h
  split at h
  · cases h
  · rename_i r hr
    split at h
    · rename_i hc
      cases hs : set snap cur clock r with
      | error e => simp [hs, Except.map] at h
      | ok r' =>
        simp only [hs, Except.map, Option.some.injEq, Except.ok.injEq] at h
        exact ⟨r, r', T.find_eq_some.mp hr, hc, hs, h.symm⟩
    · cases h

theorem id_of_get {d : Database} {k : RowId} {r : R} (h : d.get k = some (T.wrap r)) :
    T.id r = k := by
  rw [← T.id_wrap]
  exact Database.id_of_get h

end Relation

def tenantRows : Relation Tenant where
  rows d := d.tenants.rows
  id r := .tenant r.tenantID
  wrap := .tenant
  unwrap | .tenant r => some r | _ => none
  id_wrap _ := rfl
  unwrap_wrap v r := by cases v <;> simp
  mem_rows d r := by simp [Database.get, Table.mem_iff_find]

def userRows : Relation User where
  rows d := d.users.rows
  id r := .user r.userID
  wrap := .user
  unwrap | .user r => some r | _ => none
  id_wrap _ := rfl
  unwrap_wrap v r := by cases v <;> simp
  mem_rows d r := by simp [Database.get, Table.mem_iff_find]

def membershipRows : Relation TenantMembership where
  rows d := d.memberships.rows
  id r := .membership r.userID
  wrap := .membership
  unwrap | .membership r => some r | _ => none
  id_wrap _ := rfl
  unwrap_wrap v r := by cases v <;> simp
  mem_rows d r := by simp [Database.get, Table.mem_iff_find]

def categoryRows : Relation Category where
  rows d := d.categories.rows
  id r := .category r.categoryID
  wrap := .category
  unwrap | .category r => some r | _ => none
  id_wrap _ := rfl
  unwrap_wrap v r := by cases v <;> simp
  mem_rows d r := by simp [Database.get, Table.mem_iff_find]

def reportRows : Relation ExpenseReport where
  rows d := d.reports.rows
  id r := .report r.reportID
  wrap := .report
  unwrap | .report r => some r | _ => none
  id_wrap _ := rfl
  unwrap_wrap v r := by cases v <;> simp
  mem_rows d r := by simp [Database.get, Table.mem_iff_find]

def itemRows : Relation ExpenseItem where
  rows d := d.items.rows
  id r := .item r.itemID
  wrap := .item
  unwrap | .item r => some r | _ => none
  id_wrap _ := rfl
  unwrap_wrap v r := by cases v <;> simp
  mem_rows d r := by simp [Database.get, Table.mem_iff_find]

def attachmentRows : Relation Attachment where
  rows d := d.attachments.rows
  id r := .attachment r.attachmentID
  wrap := .attachment
  unwrap | .attachment r => some r | _ => none
  id_wrap _ := rfl
  unwrap_wrap v r := by cases v <;> simp
  mem_rows d r := by simp [Database.get, Table.mem_iff_find]

def refreshTokenRows : Relation RefreshToken where
  rows d := d.refreshTokens.rows
  id r := .refreshToken r.jti
  wrap := .refreshToken
  unwrap | .refreshToken r => some r | _ => none
  id_wrap _ := rfl
  unwrap_wrap v r := by cases v <;> simp
  mem_rows d r := by simp [Database.get, Table.mem_iff_find]

def passwordResetTokenRows : Relation PasswordResetToken where
  rows d := d.passwordResetTokens.rows
  id r := .passwordResetToken r.id
  wrap := .passwordResetToken
  unwrap | .passwordResetToken r => some r | _ => none
  id_wrap _ := rfl
  unwrap_wrap v r := by cases v <;> simp
  mem_rows d r := by simp [Database.get, Table.mem_iff_find]

end ExpenseSaas
