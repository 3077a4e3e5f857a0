/-!
# Errors

The sentinel errors of `internal/domain/errors.go`, the errors PostgreSQL
reports, and Go error values as the service layer builds them. `fmt.Errorf` with
`%w` keeps the error it wraps, and whether an error is a given sentinel depends
on how it is asked: `errors.Is` looks through the wrapping, `==` does not.
-/

namespace ExpenseSaas

/-- The sentinel errors of the domain. -/
inductive DomainError where
  | invalidStateTransition
  | selfApprovalNotAllowed
  | selfPaymentNotAllowed
  | emptyReportSubmission
  | invalidPeriod
  | invalidAmount
  | reportNotEditable
  | noApproverInTenant
  | reportNotDeletable
  | resourceNotFound
  | forbidden
  | invalidFileType
  | fileTooLarge
  | missingRejectionReason
  | conflict
  | emailAlreadyExists
  | invalidCredentials
  | tokenExpired
  | tokenRevoked
  | invalidToken
  deriving DecidableEq, Repr

/-- What PostgreSQL refuses a statement with. -/
inductive SqlError where
  /-- 22001: the value is too long for its `VARCHAR`. -/
  | stringDataRightTruncation
  /-- 22021: text is valid UTF-8 and contains no zero byte. -/
  | characterNotInRepertoire
  /-- 22003: the value does not fit `INTEGER`. -/
  | numericValueOutOfRange
  /-- 22008: a date or a time is out of range. -/
  | datetimeFieldOverflow
  /-- 2201X: a negative `OFFSET`. -/
  | invalidRowCountInResultOffset
  | foreignKeyViolation
  | uniqueViolation
  | checkViolation
  /-- 25P02: an earlier statement of the transaction failed. -/
  | inFailedSqlTransaction
  | deadlockDetected
  /-- The connection was lost, or the request was cancelled. -/
  | connectionFailure
  deriving DecidableEq, Repr

/-- A Go error value. -/
inductive GoError where
  /-- A sentinel of the domain, returned as it is. -/
  | sentinel (e : DomainError)
  /-- What the database driver returned. -/
  | sql (e : SqlError)
  /-- An error of another library. -/
  | other (text : String)
  /-- `fmt.Errorf("context: %w", err)`. -/
  | wrap (context : String) (err : GoError)
  deriving DecidableEq, Repr

/-- `errors.Is(err, target)`. -/
def GoError.is (target : DomainError) : GoError → Bool
  | .sentinel e => e = target
  | .wrap _ err => err.is target
  | _ => false

/-- `errors.As(err, &pgErr)`: the database's own error, if there is one inside. -/
def GoError.asSql : GoError → Option SqlError
  | .sql e => some e
  | .wrap _ err => err.asSql
  | _ => none

/-- The status and code `respondDomainError` answers with; it compares with `==`. -/
def respondDomainError : GoError → Nat × String
  | .sentinel .resourceNotFound => (404, "RESOURCE_NOT_FOUND")
  | .sentinel .forbidden => (403, "FORBIDDEN")
  | .sentinel .selfApprovalNotAllowed => (403, "SELF_APPROVAL_NOT_ALLOWED")
  | .sentinel .selfPaymentNotAllowed => (403, "SELF_PAYMENT_NOT_ALLOWED")
  | .sentinel .invalidStateTransition => (422, "INVALID_STATE_TRANSITION")
  | .sentinel .emptyReportSubmission => (422, "EMPTY_REPORT_SUBMISSION")
  | .sentinel .noApproverInTenant => (422, "NO_APPROVER_IN_TENANT")
  | .sentinel .reportNotEditable => (422, "REPORT_NOT_EDITABLE")
  | .sentinel .reportNotDeletable => (422, "REPORT_NOT_DELETABLE")
  | .sentinel .missingRejectionReason => (422, "MISSING_REJECTION_REASON")
  | .sentinel .conflict => (409, "CONFLICT")
  | .sentinel .invalidPeriod => (422, "VALIDATION_ERROR")
  | .sentinel .invalidAmount => (422, "VALIDATION_ERROR")
  | _ => (500, "INTERNAL_ERROR")

/-- `respondAttachmentError`: two more errors have a status of their own here. -/
def respondAttachmentError : GoError → Nat × String
  | .sentinel .fileTooLarge => (413, "FILE_TOO_LARGE")
  | .sentinel .invalidFileType => (422, "INVALID_FILE_TYPE")
  | e => respondDomainError e

/-- The error responses of a handler; none of them reads as a success. -/
structure Responder where
  respond : GoError → Nat × String
  refuses : ∀ e, 400 ≤ (respond e).1

/-- What most handlers answer errors with. -/
def domainResponder : Responder where
  respond := respondDomainError
  refuses e := by
    unfold respondDomainError
    split <;> decide

/-- What `UploadAttachment` answers errors with. -/
def attachmentResponder : Responder where
  respond := respondAttachmentError
  refuses e := by
    unfold respondAttachmentError
    split
    · decide
    · decide
    · exact domainResponder.refuses e

end ExpenseSaas
