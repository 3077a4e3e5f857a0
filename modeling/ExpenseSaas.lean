import ExpenseSaas.ReadCommitted.Stamps
import ExpenseSaas.ReadCommitted.Acknowledged
import ExpenseSaas.ReadCommitted.Table
import ExpenseSaas.Server
import ExpenseSaas.Workflow.Deletion
import ExpenseSaas.Workflow.Orphans
import ExpenseSaas.Workflow.Record
import ExpenseSaas.Workflow.Rotation
import ExpenseSaas.Workflow.Sessions
import ExpenseSaas.Workflow.Totals
import ExpenseSaas.Workflow.Approvers
import ExpenseSaas.Workflow.Attribution
import ExpenseSaas.Workflow.Signup
import ExpenseSaas.Workflow.Files
import ExpenseSaas.Middleware.Status
import ExpenseSaas.Middleware.Hygiene
import ExpenseSaas.Middleware.Cleanup
import ExpenseSaas.Middleware.Chain
import ExpenseSaas.Alone.Amounts
import ExpenseSaas.Alone.Listings
import ExpenseSaas.Alone.Accepted
import ExpenseSaas.Alone.Resubmission
import ExpenseSaas.Alone.Ranges
import ExpenseSaas.Alone.Agreement
import ExpenseSaas.Workflow.Pending
import ExpenseSaas.Alone.Months
import ExpenseSaas.Frontend.SingleFlight
import ExpenseSaas.Frontend.Logout
import ExpenseSaas.Workflow.Availability
import ExpenseSaas.Alone.Applicants
import ExpenseSaas.Handler.PageParams
import ExpenseSaas.Middleware.RemoteIP
import ExpenseSaas.Workflow.OwnerPool
import ExpenseSaas.Middleware.RetryAfter
import ExpenseSaas.Workflow.Downloads
import ExpenseSaas.Go.Uuid
import ExpenseSaas.Jwt.Documented
import ExpenseSaas.Workflow.Authentication
import ExpenseSaas.Frontend.AbortSave
import ExpenseSaas.Frontend.ApprovalList
import ExpenseSaas.Workflow.Resets
import ExpenseSaas.Workflow.Locking
import ExpenseSaas.Workflow.Scope
import ExpenseSaas.Workflow.Disclosure
import ExpenseSaas.ReadCommitted.Reliance
import ExpenseSaas.Contract.Blame
import ExpenseSaas.Workflow.Faults
import ExpenseSaas.ReadCommitted.Waits
import ExpenseSaas.Contract.LockOrder
import ExpenseSaas.Workflow.Deadlocks
import ExpenseSaas.ReadCommitted.TwoRuns
import ExpenseSaas.Isolation.Footprint
import ExpenseSaas.Isolation.Statements
import ExpenseSaas.Isolation.Grounds
import ExpenseSaas.Isolation.Requests
import ExpenseSaas.Isolation.Tenants
import ExpenseSaas.Isolation.Reports
