import ExpenseSaas.Contract.Requests

/-!
# What an upload does to the store

Of the requests that change attachments only `UploadAttachment` writes to the
object store. It writes once, under a key made from an identifier it has just
been given, and it saves the metadata afterwards: of the object it has stored,
once the store has said that it has it. `FileAsks` is that promise, and
`call_filesAsk` proves it of the code.
-/

namespace ExpenseSaas

open ReadCommitted Sql

/-- The key of an attachment in the store. -/
def attachmentKey (tenantID reportID attachmentID : UUID) : String :=
  uuidString tenantID ++ "/" ++ uuidString reportID ++ "/" ++ uuidString attachmentID

section

variable {t k u : UUID} {c : Char}

theorem isDigit_of_mem_uuidString (h : c ∈ (uuidString u).toList) : c.isDigit = true := by
  unfold uuidString at h
  rw [Nat.toList_repr] at h
  exact Nat.isDigit_of_mem_toDigits (by omega) (by omega) h

theorem not_mem_uuidString (hc : c.isDigit = false) : c ∉ (uuidString u).toList := by
  intro h
  rw [isDigit_of_mem_uuidString h] at hc
  cases hc

theorem toList_attachmentKey : (attachmentKey t k u).toList =
    ((uuidString t).toList ++ '/' :: (uuidString k).toList) ++ '/' :: (uuidString u).toList := by
  simp [attachmentKey]

end

/-- The call uploads or deletes an attachment, or deletes what it belongs to. -/
def Call.onFiles : Call → Bool
  | .tenant _ (.uploadAttachment ..) => true
  | .tenant _ (.deleteAttachment ..) => true
  | .tenant _ (.deleteItem ..) => true
  | .tenant _ (.deleteReport _) => true
  | _ => false

/-- Nothing has been uploaded. -/
def NoUpload (tr : Trace) : Prop :=
  ∀ key content contentType r,
    (⟨.ext (.upload key content contentType), r⟩ : Event Command Command.Resp) ∉ tr

/-- `uuid.New()` was answered with `u`. -/
def Drew (tr : Trace) (u : UUID) : Prop :=
  (⟨.ext .newUUID, u⟩ : Event Command Command.Resp) ∈ tr

/-- The store has said that it has this content under this key. -/
def Uploaded (tr : Trace) (key : String) (content : List UInt8) (contentType : MimeType) : Prop :=
  (⟨.ext (.upload key content contentType), .ok ()⟩ : Event Command Command.Resp) ∈ tr

/-- What a call promises about the store, and about metadata. -/
def FileAsks (tr : Trace) : Command → Prop
  | .ext (.upload key _ _) =>
      NoUpload tr ∧ ∃ t k u, key = attachmentKey t k u ∧ Drew tr u
  | .sql (.createAttachment p) =>
      p.s3Key = attachmentKey p.tenantID p.reportID p.attachmentID ∧
        ∃ content, Uploaded tr p.s3Key content p.mimeType ∧ p.fileSize = content.length ∧
          detectMimeType content = p.mimeType
  | _ => True

/-- The contract. -/
abbrev fileContract : Contract Command Command.Resp := server.contract FileAsks

/-- The command neither uploads nor saves metadata. -/
def Plain : Command → Prop
  | .ext (.upload ..) => False
  | .sql (.createAttachment _) => False
  | _ => True

theorem fileAsks_of_plain {tr : Trace} {c : Command} (h : Plain c) : FileAsks tr c := by
  cases c with
  | sql q =>
    cases q with
    | createAttachment p => exact h.elim
    | _ => trivial
  | ext x =>
    cases x with
    | upload key content contentType => exact h.elim
    | _ => trivial
  | _ => trivial

section

variable {tr evs : Trace}

theorem noUpload_nil : NoUpload [] := fun _ _ _ _ => List.not_mem_nil

theorem NoUpload.append (h : NoUpload tr) (hevs : ∀ ev ∈ evs, Plain ev.1) : NoUpload (tr ++ evs) := by
  intro key content contentType r hmem
  rcases List.mem_append.mp hmem with hmem | hmem
  · exact h _ _ _ _ hmem
  · exact hevs _ hmem

theorem NoUpload.plain (h : NoUpload tr) {c : Command} {r : Command.Resp c} (hc : Plain c) :
    NoUpload (tr ++ [⟨c, r⟩]) := by
  refine h.append fun ev hev => ?_
  rw [List.mem_singleton.mp hev]
  exact hc

end

/-! ## Services that leave the store alone -/

section

variable {α β : Type} {t k i a : UUID} {tr : Trace}

theorem plain_sql {q : Stmt} (h : Plain (.sql q)) : Svc.Only Plain (sql q) :=
  Svc.only_bind (Svc.only_call h) fun _ => Svc.only_ofExcept

theorem plain_orNoRows {e : DomainError} {row : Option α} : Svc.Only Plain (orNoRows e row) := by
  cases row with
  | none => exact Svc.only_throw
  | some r => exact Svc.only_pure

theorem plain_getReport : Svc.Only Plain (ReportRepo.getByID t k) :=
  Svc.only_bind (Svc.only_mapError (plain_sql trivial)) fun _ => plain_orNoRows

theorem plain_getItem : Svc.Only Plain (ItemRepo.getByID t k i) :=
  Svc.only_bind (Svc.only_mapError (plain_sql trivial)) fun _ => plain_orNoRows

theorem plain_getAttachment : Svc.Only Plain (AttachmentRepo.getByID t k i a) :=
  Svc.only_bind (Svc.only_mapError (plain_sql trivial)) fun _ => plain_orNoRows

theorem plain_editableReport {actor : Actor} : Svc.Only Plain (editableReport actor k) :=
  Svc.only_bind plain_getReport fun _ => Svc.only_bind Svc.only_ofExcept fun _ =>
    Svc.only_bind Svc.only_ofExcept fun _ => Svc.only_pure

theorem plain_deleteReport {actor : Actor} : Svc.Only Plain (ReportService.deleteReport actor k) := by
  have hsoft : Svc.Only Plain (ReportRepo.softDelete actor.tenantID k) :=
    Svc.only_bind (Svc.only_mapError (plain_sql trivial)) fun _ =>
      Svc.only_bind (Svc.only_mapError (plain_sql trivial)) fun _ =>
        Svc.only_mapError (plain_sql trivial)
  exact Svc.only_bind plain_getReport fun _ => Svc.only_bind Svc.only_ofExcept fun _ =>
    Svc.only_bind (Svc.only_call trivial) fun _ => Svc.only_bind Svc.only_ofExcept fun _ => hsoft

theorem plain_deleteItem {actor : Actor} : Svc.Only Plain (ItemService.deleteItem actor k i) := by
  have hsoft : Svc.Only Plain (ItemRepo.softDelete actor.tenantID k i) :=
    Svc.only_bind (Svc.only_mapError (plain_sql trivial)) fun _ =>
      Svc.only_bind (Svc.only_mapError (plain_sql trivial)) fun _ =>
        Svc.only_mapError (plain_sql trivial)
  exact Svc.only_bind plain_editableReport fun _ => Svc.only_bind plain_getItem fun _ => hsoft

theorem plain_deleteAttachment {actor : Actor} :
    Svc.Only Plain (AttachmentService.deleteAttachment actor k i a) :=
  Svc.only_bind plain_editableReport fun _ => Svc.only_bind plain_getAttachment fun _ =>
    Svc.only_mapError (plain_sql trivial)

/-- What leaves the store alone keeps the contract, and nothing is uploaded by it. -/
theorem wp_plain {x : Service α} (hx : Svc.Only Plain x) (htr : NoUpload tr) {Q : Trace → α → Prop}
    (hQ : ∀ tr' a, NoUpload tr' → Q tr' a) : Svc.wp fileContract tr x Q :=
  Svc.wp_of_only hx (fun _ _ => fileAsks_of_plain) fun _ hevs a => hQ _ a (htr.append hevs)

end

/-! ## The upload -/

section

variable {α : Type} {actor : Actor} {tr : Trace}

/-- A size that passes the check fits the column. -/
theorem int32_fileSize {upload : FileUpload} : int32 upload.fileSize = upload.fileSize := by
  have hle : upload.fileSize ≤ 5 * 1024 * 1024 := upload.fileSize_le
  have heq := upload.fileSize_eq
  refine Int.bmod_eq_of_le ?_ ?_
  · omega
  · omega

theorem wp_uploadAttachment {k i : UUID} {upload : FileUpload} (htr : NoUpload tr) :
    Svc.wp fileContract tr (AttachmentService.uploadAttachment actor k i upload)
      fun _ _ => True := by
  unfold AttachmentService.uploadAttachment
  rw [Svc.wp_bind]
  refine wp_plain plain_editableReport htr fun tr _ htr => ?_
  rw [Svc.wp_bind]
  refine wp_plain plain_getItem htr fun tr _ htr => ?_
  split
  · rw [wp_fail]
    trivial
  split
  · rw [wp_fail]
    trivial
  split
  · rw [wp_fail]
    trivial
  rename_i hdetect
  have hdetect : detectMimeType upload.content = upload.mimeType := Decidable.not_not.mp hdetect
  rw [Svc.wp_bind]
  refine wp_ext trivial fun u _ => ?_
  have hdrew : Drew (tr ++ [⟨.ext .newUUID, u⟩]) u := by simp [Drew]
  have htr' : NoUpload (tr ++ [⟨.ext .newUUID, u⟩]) := htr.plain trivial
  simp only [Svc.wp_bind, wp_errorf, wp_orFail]
  refine wp_ext ⟨htr', actor.tenantID, k, u, rfl, hdrew⟩ fun r _ => ?_
  rintro ⟨⟩ rfl
  unfold AttachmentRepo.create
  rw [wp_errorf]
  refine wp_sql ⟨rfl, upload.content, ?_, ?_, hdetect⟩ fun _ _ => ?_
  · exact List.mem_append_right _ (List.mem_singleton_self _)
  · show int32 upload.fileSize = upload.content.length
    rw [int32_fileSize]
    exact upload.fileSize_eq
  · rw [Svc.wp_pure]
    trivial

end

/-- **A call on files keeps its promise about the store.** -/
theorem call_filesAsk {call : Call} (hcall : call.onFiles = true) :
    Prog.wp (server.contract FileAsks) [] (server.code call) fun _ _ => True := by
  have hplain : ∀ {α : Type} {x : Service α} (tr : Trace), Svc.Only Plain x → NoUpload tr →
      Svc.wp fileContract tr x fun _ _ => True := fun tr hx htr => wp_plain hx htr fun _ _ _ => trivial
  cases call with
  | tenant actor e =>
    refine wp_tenantContext_handler (fun _ => trivial) (fun _ => trivial) (fun _ => trivial)
      (fun _ => trivial) fun b u => ?_
    have htr : NoUpload [⟨.begin, .ok b⟩, ⟨.sql (.setCurrentTenant actor.tenantID), .ok u⟩] :=
      (noUpload_nil.plain (c := .begin) (r := .ok b) trivial).plain
        (c := .sql (.setCurrentTenant actor.tenantID)) (r := .ok u) trivial
    cases e with
    | uploadAttachment k i upload => exact wp_requireRole_map (wp_uploadAttachment htr)
    | deleteAttachment k i a => exact wp_requireRole_map (hplain _ plain_deleteAttachment htr)
    | deleteItem k i => exact wp_requireRole_map (hplain _ plain_deleteItem htr)
    | deleteReport k => exact wp_requireRole_map (hplain _ plain_deleteReport htr)
    | _ => cases hcall
  | _ => cases hcall

end ExpenseSaas
