import ExpenseSaas.Service.Report

/-!
# Items and attachments

`item_service.go` and `attachment_service.go`. Every change checks, in this
order, that the report exists, that the actor owns it and that it is a draft;
all three are checked on the row one statement read, and the change is made by
later ones.
-/

namespace ExpenseSaas

open ReadCommitted Sql

/-- What the handler lets through to `CreateItem`. -/
structure CreateItemParams where
  expenseDate : Date
  amount : Int
  categoryID : UUID
  description : String
  amount_pos : 0 < amount
  description_ne : description ≠ ""
  description_le : description.toList.length ≤ 500

/-- What the handler lets through to `UpdateItem`. -/
structure UpdateItemParams where
  expenseDate : Date
  amount : Int
  categoryID : UUID
  description : String
  updatedAt : Timestamp
  amount_pos : 0 < amount
  description_ne : description ≠ ""
  description_le : description.toList.length ≤ 500

/-- `attachmentMaxSize`: 5 MB. -/
def attachmentMaxSize : Int := 5 * 1024 * 1024

/-- `attachmentDownloadExpiry`: 15 minutes. -/
def attachmentDownloadExpiry : Nat := 15 * 60 * 1000000

/-- What the handler lets through to `UploadAttachment`. -/
structure FileUpload where
  /-- As the client sends it, in whatever encoding. -/
  fileName : Go.Str
  fileSize : Int
  mimeType : MimeType
  content : List UInt8
  fileSize_eq : fileSize = content.length
  fileSize_le : fileSize ≤ attachmentMaxSize
  mimeType_valid : mimeType.isValid = true

/-- `AttachmentAccess`: a signed URL. -/
structure AttachmentAccess where
  url : String
  fileName : String
  mimeType : MimeType
  fileSize : Int
  expiresAt : Timestamp
  deriving DecidableEq, Repr

/-- A draft of the actor's own, as the first statement of an edit reads it. -/
def editableReport (actor : Actor) (reportID : UUID) : Service ExpenseReport := do
  let report ← ReportRepo.getByID actor.tenantID reportID
  demand (Authorizer.canModifyReport actor report)
  demand report.canEdit
  pure report

namespace ItemService

/-- `buildItemDTO`. -/
def buildItemDTO (actor : Actor) (item : ExpenseItem) : Service ExpenseItemDTO := do
  let cat ← errorf "itemService.buildItemDTO (category)"
    (CategoryRepo.getByID actor.tenantID item.categoryID)
  let attachments ← errorf "itemService.buildItemDTO (attachments)"
    (AttachmentRepo.listByItemID actor.tenantID item.reportID item.itemID)
  pure (item.toDTO cat.toDTO (attachments.map Attachment.toDTO))

/-- `CreateItem`. -/
def createItem (actor : Actor) (reportID : UUID) (params : CreateItemParams) :
    Service ExpenseItemDTO := do
  let _ ← editableReport actor reportID
  demand { (default : ExpenseItem) with amount := params.amount }.validateAmount
  let _ ← CategoryRepo.getByID actor.tenantID params.categoryID
  let created ← errorf "itemService.CreateItem"
    (ItemRepo.create actor.tenantID reportID params.expenseDate params.amount params.categoryID
      params.description)
  buildItemDTO actor created

/-- `UpdateItem`: the version compared is the one the client names. -/
def updateItem (actor : Actor) (reportID itemID : UUID) (params : UpdateItemParams) :
    Service ExpenseItemDTO := do
  let _ ← editableReport actor reportID
  let item ← ItemRepo.getByID actor.tenantID reportID itemID
  let item := { item with amount := params.amount }
  demand item.validateAmount
  let _ ← CategoryRepo.getByID actor.tenantID params.categoryID
  let item ← ItemRepo.update { item with
    expenseDate := params.expenseDate, categoryID := params.categoryID
    description := params.description, updatedAt := params.updatedAt }
  buildItemDTO actor item

/-- `DeleteItem`. -/
def deleteItem (actor : Actor) (reportID itemID : UUID) : Service Unit := do
  let _ ← editableReport actor reportID
  let _ ← ItemRepo.getByID actor.tenantID reportID itemID
  ItemRepo.softDelete actor.tenantID reportID itemID

end ItemService

/-- The bytes a file starts with. -/
def startsWith (content magic : List UInt8) : Bool := magic.isPrefixOf content

def isJPEG (content : List UInt8) : Bool := startsWith content [0xFF, 0xD8, 0xFF]

def isPNG (content : List UInt8) : Bool :=
  startsWith content [0x89, 0x50, 0x4E, 0x47, 0x0D, 0x0A, 0x1A, 0x0A]

def isPDF (content : List UInt8) : Bool := startsWith content [0x25, 0x50, 0x44, 0x46]

/--
`detectMimeType`. What `http.DetectContentType` names the rest is left out: it
knows JPEG and PNG by the same first bytes, so the rest is no accepted type.
-/
def detectMimeType (content : List UInt8) : MimeType :=
  if content = [] then .other ""
  else if isJPEG content then .imageJpeg
  else if isPNG content then .imagePng
  else if isPDF content then .applicationPDF
  else .other "application/octet-stream"

/-- `uuid.String()`; identifiers are written as numbers here. -/
def uuidString (id : UUID) : String := Nat.repr id

namespace AttachmentService

/-- `UploadAttachment`. -/
def uploadAttachment (actor : Actor) (reportID itemID : UUID) (upload : FileUpload) :
    Service AttachmentDTO := do
  let _ ← editableReport actor reportID
  let _ ← ItemRepo.getByID actor.tenantID reportID itemID
  if upload.fileSize > attachmentMaxSize then fail .fileTooLarge
  else if !upload.mimeType.isValid then fail .invalidFileType
  else if detectMimeType upload.content ≠ upload.mimeType then fail .invalidFileType
  else do
    let attachmentID ← ext .newUUID
    let s3Key := uuidString actor.tenantID ++ "/" ++ uuidString reportID ++ "/"
      ++ uuidString attachmentID
    let stored ← ext (.upload s3Key upload.content upload.mimeType)
    errorf "attachmentService.UploadAttachment: upload to storage" (orFail stored)
    let att ← errorf "attachmentService.UploadAttachment: save metadata"
      (AttachmentRepo.create attachmentID actor.tenantID reportID itemID upload.fileName
        upload.fileSize upload.mimeType s3Key)
    pure att.toDTO

/-- `ListAttachments`. -/
def listAttachments (actor : Actor) (reportID itemID : UUID) : Service (List AttachmentDTO) := do
  let report ← ReportRepo.getByID actor.tenantID reportID
  demand (Authorizer.canViewReport actor report)
  let _ ← ItemRepo.getByID actor.tenantID reportID itemID
  let attachments ← errorf "attachmentService.ListAttachments"
    (AttachmentRepo.listByItemID actor.tenantID reportID itemID)
  pure (attachments.map Attachment.toDTO)

/-- `generatePresignedURL`. -/
def generatePresignedURL (actor : Actor) (reportID itemID attachmentID : UUID)
    (dispositionType : String) : Service AttachmentAccess := do
  let report ← ReportRepo.getByID actor.tenantID reportID
  demand (Authorizer.canViewReport actor report)
  let att ← AttachmentRepo.getByID actor.tenantID reportID itemID attachmentID
  let disposition := dispositionType ++ "; filename=\"" ++ att.fileName ++ "\""
  let signed ← ext (.presignGetObject att.s3Key att.fileName att.mimeType disposition
    attachmentDownloadExpiry)
  let (url, expiresAt) ← errorf "attachmentService.generatePresignedURL: presign" (orFail signed)
  pure ⟨url, att.fileName, att.mimeType, att.fileSize, expiresAt⟩

/-- `GetAttachmentDownload`. -/
def getAttachmentDownload (actor : Actor) (reportID itemID attachmentID : UUID) :
    Service AttachmentAccess :=
  generatePresignedURL actor reportID itemID attachmentID "attachment"

/-- `GetAttachmentPreview`. -/
def getAttachmentPreview (actor : Actor) (reportID itemID attachmentID : UUID) :
    Service AttachmentAccess :=
  generatePresignedURL actor reportID itemID attachmentID "inline"

/-- `DeleteAttachment`. -/
def deleteAttachment (actor : Actor) (reportID itemID attachmentID : UUID) : Service Unit := do
  let _ ← editableReport actor reportID
  let _ ← AttachmentRepo.getByID actor.tenantID reportID itemID attachmentID
  AttachmentRepo.softDelete actor.tenantID reportID itemID attachmentID

end AttachmentService

end ExpenseSaas
