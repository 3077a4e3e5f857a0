import Mathlib.Data.Nat.Notation

/-!
# Entities

The entities of `internal/domain/entity.go` and the enumerations of `enum.go`.
A row of a table and the entity read from it carry the same fields, so one
structure stands for both.

Identifiers are opaque, and all that is done with one is to compare it. Times
are whole microseconds, the resolution at which PostgreSQL stores them. Tokens
and hashes are kept symbolic: a digest remembers what it is the digest of, and a
signed token is its claims, which is what a collision-free hash and an
unforgeable signature come to.
-/

namespace ExpenseSaas

/-- `uuid.UUID`. -/
abbrev UUID : Type := Nat

/-- `time.Time` as the database keeps it: microseconds. -/
abbrev Timestamp : Type := Nat

/-- A calendar date, the `DATE` type. -/
structure Date where
  year : Nat
  month : Nat
  day : Nat
  deriving DecidableEq, Repr, Inhabited

namespace Date

/-- A key that orders dates: no month has as many as 32 days, no year as many as 13 months. -/
def ordinal (d : Date) : Nat := (d.year * 13 + d.month) * 32 + d.day

/-- `d` is not after `e`. -/
def le (d e : Date) : Bool := d.ordinal ≤ e.ordinal

/-- The month as a number, so that months can be counted across years. -/
def monthIndex (d : Date) : Nat := d.year * 12 + d.month

/-- A number with leading zeros up to `width` digits. -/
def pad (width n : Nat) : String :=
  let digits := (Nat.repr n).toList
  String.ofList (List.replicate (width - digits.length) '0' ++ digits)

/-- `Format("2006-01-02")`. -/
def format (d : Date) : String := pad 4 d.year ++ "-" ++ pad 2 d.month ++ "-" ++ pad 2 d.day

/-- `to_char(..., 'YYYY-MM')`; the year before the year 1 is 1 BC, and shown as `0001` too. -/
def yearMonth (d : Date) : String :=
  pad 4 (if d.year = 0 then 1 else d.year) ++ "-" ++ pad 2 d.month

end Date

/-- `ReportStatus`: where a report is in its life cycle. -/
inductive ReportStatus where
  | draft
  | submitted
  | approved
  | rejected
  | paid
  deriving DecidableEq, Repr, Inhabited

/-- `Role`: the one role a user has in the tenant. -/
inductive Role where
  | admin
  | approver
  | member
  | accounting
  deriving DecidableEq, Repr, Inhabited

/-- `MimeType`: the three accepted types, or whatever else a client names. -/
inductive MimeType where
  | imageJpeg
  | imagePng
  | applicationPDF
  | other (name : String)
  deriving DecidableEq, Repr, Inhabited

/-- `MimeType.IsValid`. -/
def MimeType.isValid : MimeType → Bool
  | .other _ => false
  | _ => true

/-- `Actor`: the authenticated user on whose behalf a request runs. -/
structure Actor where
  userID : UUID
  tenantID : UUID
  role : Role
  deriving DecidableEq, Repr, Inhabited

/-- An Argon2id hash, as `users.password_hash` stores it. -/
inductive PasswordHash where
  | argon2id (password : String) (salt : Nat)
  | malformed (text : String)
  deriving DecidableEq, Repr, Inhabited

/-- `RefreshTokenClaims`, with the two times the library checks. -/
structure RefreshTokenClaims where
  userID : UUID
  jti : UUID
  issuedAt : Timestamp
  expiresAt : Timestamp
  deriving DecidableEq, Repr, Inhabited

/-- The text of a refresh token: signed by this service, or not. -/
inductive RefreshTokenText where
  | signed (claims : RefreshTokenClaims)
  | foreign (text : String)
  deriving DecidableEq, Repr, Inhabited

/-- The text of an access token. -/
structure AccessToken where
  userID : UUID
  tenantID : UUID
  role : Role
  jti : UUID
  issuedAt : Timestamp
  deriving DecidableEq, Repr, Inhabited

/-- A SHA-256 digest in hex. -/
inductive Digest where
  | ofText (text : String)
  | ofRefreshToken (text : RefreshTokenText)
  deriving DecidableEq, Repr, Inhabited

/-- `Tenant`. -/
structure Tenant where
  tenantID : UUID
  companyName : String
  createdAt : Timestamp
  updatedAt : Timestamp
  deriving DecidableEq, Repr, Inhabited

/-- `User`. -/
structure User where
  userID : UUID
  email : String
  name : String
  passwordHash : PasswordHash
  createdAt : Timestamp
  updatedAt : Timestamp
  deriving DecidableEq, Repr, Inhabited

/-- `TenantMembership`: one user, one tenant, one role. -/
structure TenantMembership where
  tenantID : UUID
  userID : UUID
  role : Role
  createdAt : Timestamp
  updatedAt : Timestamp
  deriving DecidableEq, Repr, Inhabited

/-- `Category`; without a tenant it is everybody's. -/
structure Category where
  categoryID : UUID
  tenantID : Option UUID
  code : String
  nameJa : String
  sortOrder : Int
  isActive : Bool
  createdAt : Timestamp
  updatedAt : Timestamp
  deriving DecidableEq, Repr, Inhabited

/-- `ExpenseReport`, the aggregate root. -/
structure ExpenseReport where
  reportID : UUID
  tenantID : UUID
  userID : UUID
  title : String
  periodStart : Date
  periodEnd : Date
  status : ReportStatus
  totalAmount : Int
  referenceReportID : Option UUID
  submittedBy : Option UUID
  submittedAt : Option Timestamp
  approvedBy : Option UUID
  approvedAt : Option Timestamp
  approvalComment : Option String
  rejectedBy : Option UUID
  rejectedAt : Option Timestamp
  rejectionReason : Option String
  paidBy : Option UUID
  paidAt : Option Timestamp
  createdAt : Timestamp
  updatedAt : Timestamp
  deletedAt : Option Timestamp
  deriving DecidableEq, Repr, Inhabited

/-- `ExpenseItem`. -/
structure ExpenseItem where
  itemID : UUID
  reportID : UUID
  tenantID : UUID
  expenseDate : Date
  amount : Int
  categoryID : UUID
  description : String
  createdAt : Timestamp
  updatedAt : Timestamp
  deletedAt : Option Timestamp
  deriving DecidableEq, Repr, Inhabited

/-- `Attachment`: the metadata of a stored file. -/
structure Attachment where
  attachmentID : UUID
  itemID : UUID
  reportID : UUID
  tenantID : UUID
  fileName : String
  fileSize : Int
  mimeType : MimeType
  s3Key : String
  createdAt : Timestamp
  deletedAt : Option Timestamp
  deriving DecidableEq, Repr, Inhabited

/-- `RefreshToken`: the stored side of a refresh token. -/
structure RefreshToken where
  jti : UUID
  userID : UUID
  tokenHash : Digest
  isRevoked : Bool
  expiresAt : Timestamp
  createdAt : Timestamp
  deriving DecidableEq, Repr, Inhabited

/-- `PasswordResetToken`. -/
structure PasswordResetToken where
  id : UUID
  userID : UUID
  tokenHash : Digest
  expiresAt : Timestamp
  usedAt : Option Timestamp
  createdAt : Timestamp
  deriving DecidableEq, Repr, Inhabited

/-- `MonthlySummary`: what was paid for one month. -/
structure MonthlySummary where
  yearMonth : String
  totalAmount : Int
  deriving DecidableEq, Repr, Inhabited

end ExpenseSaas
