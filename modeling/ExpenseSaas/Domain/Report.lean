import Mathlib.Algebra.Ring.Int.Defs
import Mathlib.Data.List.TakeWhile
import ExpenseSaas.Domain.Entity
import ExpenseSaas.Domain.Errors

/-!
# Business rules

The state transitions of `internal/domain/report.go`, the amount check of
`item.go` and the ownership rules of `internal/service/authorizer.go`. The
transitions change an entity in memory only; whether the change reaches the
database is decided by the statement that writes it back.

`now` is what `time.Now()` answers inside a transition.
-/

namespace ExpenseSaas

/-- `unicode.IsSpace`. -/
def isSpace (c : Char) : Bool :=
  c.toNat ∈ [0x09, 0x0A, 0x0B, 0x0C, 0x0D, 0x20, 0x85, 0xA0, 0x1680, 0x2028, 0x2029, 0x202F,
    0x205F, 0x3000] || (0x2000 ≤ c.toNat && c.toNat ≤ 0x200A)

/-- `strings.TrimSpace`. -/
def trimSpace (s : String) : String :=
  String.ofList ((s.toList.dropWhile isSpace).reverse.dropWhile isSpace).reverse

theorem trimSpace_eq_empty {s : String} : trimSpace s = "" ↔ ∀ c ∈ s.toList, isSpace c = true := by
  have hofList : ∀ l : List Char, String.ofList l = "" ↔ l = [] := by
    intro l
    rw [← String.toList_inj]
    simp
  unfold trimSpace
  rw [hofList, List.reverse_eq_nil_iff, List.dropWhile_eq_nil_iff]
  constructor
  · intro h c hc
    by_contra hsp
    -- A character that is no space survives the first pass, and then the second one too.
    have hmem : c ∈ s.toList.dropWhile isSpace := by
      have hsplit := List.takeWhile_append_dropWhile (p := isSpace) (l := s.toList)
      rw [← hsplit, List.mem_append] at hc
      rcases hc with hc | hc
      · exact absurd (List.mem_takeWhile_imp hc) hsp
      · exact hc
    exact hsp (h c (List.mem_reverse.mpr hmem))
  · intro h c hc
    exact h c ((List.dropWhile_suffix isSpace).subset (List.mem_reverse.mp hc))

namespace ExpenseReport

variable (r : ExpenseReport)

/-- `Submit`: draft to submitted. -/
def submit (now : Timestamp) (actorID : UUID) (items : List ExpenseItem) (hasApprover : Bool) :
    Except DomainError ExpenseReport :=
  if r.status ≠ .draft then .error .invalidStateTransition
  else if items = [] then .error .emptyReportSubmission
  else if !hasApprover then .error .noApproverInTenant
  else .ok { r with
    status := .submitted
    submittedAt := some now
    submittedBy := some actorID
    totalAmount := (items.map ExpenseItem.amount).sum }

/-- `Approve`: submitted to approved. -/
def approve (now : Timestamp) (actorID : UUID) (comment : Option String) :
    Except DomainError ExpenseReport :=
  if r.status ≠ .submitted then .error .invalidStateTransition
  else if actorID = r.userID then .error .selfApprovalNotAllowed
  else .ok { r with
    status := .approved
    approvedAt := some now
    approvedBy := some actorID
    approvalComment := comment }

/-- `Reject`: submitted to rejected. -/
def reject (now : Timestamp) (actorID : UUID) (reason : String) :
    Except DomainError ExpenseReport :=
  if r.status ≠ .submitted then .error .invalidStateTransition
  else if actorID = r.userID then .error .selfApprovalNotAllowed
  else if trimSpace reason = "" then .error .missingRejectionReason
  else .ok { r with
    status := .rejected
    rejectedAt := some now
    rejectedBy := some actorID
    rejectionReason := some reason }

/-- `MarkAsPaid`: approved to paid. -/
def markAsPaid (now : Timestamp) (actorID : UUID) : Except DomainError ExpenseReport :=
  if r.status ≠ .approved then .error .invalidStateTransition
  else if actorID = r.userID then .error .selfPaymentNotAllowed
  else .ok { r with
    status := .paid
    paidAt := some now
    paidBy := some actorID }

/-- `Delete`: sets `deleted_at` of a draft. -/
def delete (now : Timestamp) : Except DomainError ExpenseReport :=
  if r.status ≠ .draft then .error .reportNotDeletable
  else .ok { r with deletedAt := some now }

/-- `CanEdit`: only drafts are edited. -/
def canEdit : Except DomainError Unit :=
  if r.status ≠ .draft then .error .reportNotEditable else .ok ()

end ExpenseReport

/-- `ValidateAmount`. -/
def ExpenseItem.validateAmount (i : ExpenseItem) : Except DomainError Unit :=
  if i.amount ≤ 0 then .error .invalidAmount else .ok ()

/-! ## Ownership -/

namespace Authorizer

/-- `CanModifyReport`: the owner only. -/
def canModifyReport (actor : Actor) (report : ExpenseReport) : Except DomainError Unit :=
  if actor.userID ≠ report.userID then .error .forbidden else .ok ()

/-- `CanViewReport`: the owner, and others as their role has it. -/
def canViewReport (actor : Actor) (report : ExpenseReport) : Except DomainError Unit :=
  if actor.userID = report.userID then .ok ()
  else match actor.role with
    | .admin => .ok ()
    | .accounting => .ok ()
    | .approver =>
        if report.status = .submitted then .ok ()
        else if report.approvedBy = some actor.userID then .ok ()
        else if report.rejectedBy = some actor.userID then .ok ()
        else .error .forbidden
    | .member => .error .forbidden

/-- `CanApproveOrReject`: anyone but the owner. -/
def canApproveOrReject (actor : Actor) (report : ExpenseReport) : Except DomainError Unit :=
  if actor.userID = report.userID then .error .selfApprovalNotAllowed else .ok ()

/-- `CanMarkAsPaid`: anyone but the owner. -/
def canMarkAsPaid (actor : Actor) (report : ExpenseReport) : Except DomainError Unit :=
  if actor.userID = report.userID then .error .selfPaymentNotAllowed else .ok ()

end Authorizer

section

variable {actor : Actor} {r r' : ExpenseReport} {now : Timestamp} {u : Unit}

theorem owner_of_canModify (h : Authorizer.canModifyReport actor r = .ok u) :
    r.userID = actor.userID := by
  unfold Authorizer.canModifyReport at h
  split at h
  · cases h
  · rename_i hu
    exact (not_not.mp hu).symm

theorem draft_of_canEdit (h : r.canEdit = .ok u) : r.status = .draft := by
  unfold ExpenseReport.canEdit at h
  split at h
  · cases h
  · rename_i hs
    exact not_not.mp hs

theorem submit_ok {actorID : UUID} {items : List ExpenseItem} {hasApprover : Bool}
    (h : r.submit now actorID items hasApprover = .ok r') :
    r.status = .draft ∧ items ≠ [] ∧ hasApprover = true ∧ r' = { r with
      status := .submitted, submittedAt := some now, submittedBy := some actorID
      totalAmount := (items.map ExpenseItem.amount).sum } := by
  unfold ExpenseReport.submit at h
  split_ifs at h with h₁ h₂ h₃
  cases h
  exact ⟨not_not.mp h₁, h₂, by simpa using h₃, rfl⟩

theorem approve_ok {actorID : UUID} {comment : Option String}
    (h : r.approve now actorID comment = .ok r') :
    r.status = .submitted ∧ actorID ≠ r.userID ∧ r' = { r with
      status := .approved, approvedAt := some now, approvedBy := some actorID
      approvalComment := comment } := by
  unfold ExpenseReport.approve at h
  split_ifs at h with h₁ h₂
  cases h
  exact ⟨not_not.mp h₁, h₂, rfl⟩

theorem reject_ok {actorID : UUID} {reason : String} (h : r.reject now actorID reason = .ok r') :
    r.status = .submitted ∧ actorID ≠ r.userID ∧ trimSpace reason ≠ "" ∧ r' = { r with
      status := .rejected, rejectedAt := some now, rejectedBy := some actorID
      rejectionReason := some reason } := by
  unfold ExpenseReport.reject at h
  split_ifs at h with h₁ h₂ h₃
  cases h
  exact ⟨not_not.mp h₁, h₂, h₃, rfl⟩

theorem markAsPaid_ok {actorID : UUID} (h : r.markAsPaid now actorID = .ok r') :
    r.status = .approved ∧ actorID ≠ r.userID ∧ r' = { r with
      status := .paid, paidAt := some now, paidBy := some actorID } := by
  unfold ExpenseReport.markAsPaid at h
  split_ifs at h with h₁ h₂
  cases h
  exact ⟨not_not.mp h₁, h₂, rfl⟩

theorem draft_of_delete (h : r.delete now = .ok r') : r.status = .draft := by
  unfold ExpenseReport.delete at h
  split at h
  · cases h
  · rename_i hs
    exact not_not.mp hs

end

end ExpenseSaas
