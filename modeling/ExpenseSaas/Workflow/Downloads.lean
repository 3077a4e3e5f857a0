import ExpenseSaas.Workflow.Files
import ExpenseSaas.Contract.Requests
import ExpenseSaas.Http.ContentDisposition
import ExpenseSaas.Runs.Schedules

/-!
# The name of a download

`generatePresignedURL` puts the name of the file between quotes as it is stored, and
nothing is said about the name when it is uploaded. `call_signs` is what the two
endpoints ask of the storage, whoever else is at work; `roundTrips_iff` is what a
client reads in the field that comes with the file.
-/

namespace ExpenseSaas

open ReadCommitted Sql

/-- The field the storage is asked to send. -/
def contentDisposition (dispositionType fileName : String) : String :=
  dispositionType ++ "; filename=\"" ++ fileName ++ "\""

/-- What the endpoint calls `generatePresignedURL` with. -/
def Endpoint.dispositionType : Endpoint → Option String
  | .getAttachmentDownload .. => some "attachment"
  | .getAttachmentPreview .. => some "inline"
  | _ => none

/-- The call has read the attachment, whose file has this name. -/
def ReadFile (tr : Trace) (fileName : String) : Prop :=
  ∃ (t k i a : UUID) (att : Attachment), att.fileName = fileName ∧
    (⟨.sql (.getAttachmentByID t k i a), .ok (some att)⟩ : Event Command Command.Resp) ∈ tr

/-- A URL is asked for with the name that was read. -/
def SignAsks (dispositionType : String) (tr : Trace) : Command → Prop
  | .ext (.presignGetObject _ fileName _ disposition _) =>
      ReadFile tr fileName ∧ disposition = contentDisposition dispositionType fileName
  | _ => True

/-- And the call, if it runs one of the two. -/
def Call.dispositionType : Call → Option String
  | .tenant _ e => e.dispositionType
  | _ => none

/-- The promise of a call. -/
def CallSignAsks (call : Call) (tr : Trace) (c : Command) : Prop :=
  ∀ dispositionType, call.dispositionType = some dispositionType → SignAsks dispositionType tr c

section

variable {actor : Actor} {k i a : UUID} {tr : Trace} {dispositionType : String}

theorem wp_generatePresignedURL {Q : Trace → AttachmentAccess → Prop} (hQ : ∀ tr r, Q tr r) :
    Svc.wp (server.contract (SignAsks dispositionType)) tr
      (AttachmentService.generatePresignedURL actor k i a dispositionType) Q := by
  unfold AttachmentService.generatePresignedURL ReportRepo.getByID AttachmentRepo.getByID
  simp only [Svc.wp_bind]
  rw [wp_errorf]
  refine wp_sql trivial fun row _ => ?_
  rw [wp_orNoRows]
  intro report _
  rw [wp_demand]
  intro _ _
  rw [wp_errorf]
  refine wp_sql trivial fun row _ => ?_
  rw [wp_orNoRows]
  rintro att rfl
  refine wp_ext ⟨⟨_, _, _, _, att, rfl, List.mem_append_right _ (List.mem_singleton_self _)⟩, rfl⟩
    fun signed _ => ?_
  rw [wp_errorf, wp_orFail]
  intro r _
  rw [Svc.wp_pure]
  exact hQ _ _

end

/-- **A call asks for a URL with the name it has read.** -/
theorem call_signs (call : Call) :
    Prog.wp (server.contract (CallSignAsks call)) [] (server.code call) fun _ _ => True := by
  have hfree : (∀ tr c, CallSignAsks call tr c) →
      Prog.wp (server.contract (CallSignAsks call)) [] (server.code call) fun _ _ => True :=
    fun h => Prog.wp_of_free h fun _ _ => trivial
  cases call with
  | tenant actor e =>
    have hsigns : ∀ {dispositionType : String},
        (Call.tenant actor e).dispositionType = some dispositionType →
        Prog.wp (server.contract (SignAsks dispositionType)) [] (server.code (.tenant actor e))
          (fun _ _ => True) →
        Prog.wp (server.contract (CallSignAsks (.tenant actor e))) [] (server.code (.tenant actor e))
          fun _ _ => True := by
      intro dispositionType he h
      refine Prog.wp_weaken h (fun tr c hc type htype => ?_) fun _ _ _ hr => hr
      rw [he] at htype
      cases htype
      exact hc
    cases e with
    | getAttachmentDownload k i a =>
      exact hsigns rfl (wp_tenantContext_handler (fun _ => trivial) (fun _ => trivial)
        (fun _ => trivial) (fun _ => trivial) fun _ _ =>
          wp_requireRole_map (wp_generatePresignedURL fun _ _ => trivial))
    | getAttachmentPreview k i a =>
      exact hsigns rfl (wp_tenantContext_handler (fun _ => trivial) (fun _ => trivial)
        (fun _ => trivial) (fun _ => trivial) fun _ _ =>
          wp_requireRole_map (wp_generatePresignedURL fun _ _ => trivial))
    | _ =>
      refine hfree fun tr c type htype => ?_
      cases htype
  | _ =>
    refine hfree fun tr c type htype => ?_
    cases htype

theorem attachment_or_inline {call : Call} {dispositionType : String}
    (h : call.dispositionType = some dispositionType) :
    dispositionType = "attachment" ∨ dispositionType = "inline" := by
  cases call with
  | tenant actor e =>
    cases e with
    | getAttachmentDownload k i a =>
      cases h
      exact .inl rfl
    | getAttachmentPreview k i a =>
      cases h
      exact .inr rfl
    | _ => cases h
  | _ => cases h

/-! ## What the client reads -/

/-- The name is read back, with the type and nothing else. -/
def RoundTrips (dispositionType fileName disposition : String) : Prop :=
  ContentDisposition.parse disposition.toList =
    some ⟨dispositionType.toList, [("filename".toList, fileName.toList)]⟩

/-- No character of the name is a quote, a backslash or a control character other than a tab. -/
def PlainName (fileName : String) : Prop :=
  ∀ c ∈ fileName.toList, c ≠ '"' ∧ c ≠ '\\' ∧ (c = '\t' ∨ (32 ≤ c.val ∧ c.val ≠ 127))

theorem text_iff {c : Char} : ContentDisposition.isText c = true ↔
    c = '\t' ∨ (32 ≤ c.val ∧ c.val ≠ 127) := by
  unfold ContentDisposition.isText ContentDisposition.isBlank ContentDisposition.isControl
  simp only [Bool.or_eq_true, decide_eq_true_eq, Bool.not_eq_true', Bool.or_eq_false_iff,
    decide_eq_false_iff_not, UInt32.not_lt]
  constructor
  · rintro ((rfl | htab) | htext)
    · exact .inr (by decide)
    · exact .inl htab
    · exact .inr htext
  · rintro (htab | htext)
    · exact .inl (.inr htab)
    · exact .inr htext

theorem plainName_iff {fileName : String} :
    PlainName fileName ↔ fileName.toList.all ContentDisposition.isPlain = true := by
  rw [List.all_eq_true]
  refine forall_congr' fun c => imp_congr Iff.rfl ?_
  rw [ContentDisposition.plain_iff, text_iff]
  exact ⟨fun ⟨hquote, hslash, htext⟩ => ⟨htext, hquote, hslash⟩,
    fun ⟨htext, hquote, hslash⟩ => ⟨hquote, hslash, htext⟩⟩

theorem roundTrips_contentDisposition_iff {dispositionType fileName : String}
    (htype : dispositionType.toList.all ContentDisposition.isTokenChar = true)
    (hne : dispositionType.toList ≠ []) :
    RoundTrips dispositionType fileName (contentDisposition dispositionType fileName) ↔
      PlainName fileName := by
  have hquoted : (contentDisposition dispositionType fileName).toList =
      ContentDisposition.quoted dispositionType.toList "filename".toList fileName.toList := by
    unfold contentDisposition ContentDisposition.quoted
    simp [String.toList_append]
  unfold RoundTrips
  rw [hquoted, plainName_iff]
  exact ContentDisposition.parse_quoted_iff htype hne rfl (by decide)

/--
**The name of a file comes back with it if and only if it is plain**: whenever a
download or a preview has asked the storage for a URL, in every run, the name is that
of an attachment the call has read, and the field that will be sent says so if and
only if no character of the name is special.
-/
theorem roundTrips_iff {C : World server → Action server → Prop} {d₀ : Database} {w : World server}
    {i : Nat} {s : Session server} {dispositionType key fileName disposition : String} {mimeType : MimeType} {expiry : Nat}
    {r : Ext.Result (.presignGetObject key fileName mimeType disposition expiry)}
    (h : Reachable C (.init d₀) w) (hs : w.sessions[i]? = some s)
    (hcall : s.call.dispositionType = some dispositionType)
    (hsigned : (⟨.ext (.presignGetObject key fileName mimeType disposition expiry), r⟩ :
      Event Command Command.Resp) ∈ s.trace) :
    ReadFile s.trace fileName ∧
      (RoundTrips dispositionType fileName disposition ↔ PlainName fileName) := by
  obtain ⟨pre, post, htr⟩ := List.append_of_mem hsigned
  have hpre : pre ++ [⟨.ext (.presignGetObject key fileName mimeType disposition expiry), r⟩] <+:
      s.trace := by
    rw [htr]
    exact ⟨post, by simp⟩
  have hasked := h.asked_before (fun _ c _ => call_signs c) hs hpre
  obtain ⟨⟨t, k, i, a, att, hname, hmem⟩, hdisposition⟩ := hasked dispositionType hcall
  refine ⟨⟨t, k, i, a, att, hname, htr ▸ List.mem_append_left _ hmem⟩, ?_⟩
  rw [hdisposition]
  rcases attachment_or_inline hcall with rfl | rfl
  · exact roundTrips_contentDisposition_iff rfl (by decide)
  · exact roundTrips_contentDisposition_iff rfl (by decide)

/-! ## Two names -/

namespace Sample

/-- The owner uploads a file and downloads it. -/
def uploadThenDownload (fileName : String) : List (Action server) :=
  [.start (.tenant owner (.uploadAttachment 1 2
    { upload with fileName := Go.lit fileName }))] ++ turns 0 8 100 ++
  [.start (.tenant owner (.getAttachmentDownload 1 2 104))] ++ turns 1 6 200

/-- The name and the field an event has asked the storage to send. -/
def askedFor : Event Command Command.Resp → Option (String × String)
  | ⟨.ext (.presignGetObject _ fileName _ disposition _), _⟩ => some (fileName, disposition)
  | _ => none

end Sample

/-- A session asks the storage once, and is told what to send. -/
theorem presigned_of_askedFor {s : Session server} {fileName disposition : String}
    (h : (fileName, disposition) ∈ s.trace.filterMap Sample.askedFor) :
    ∃ (key : String) (mimeType : MimeType) (expiry : Nat)
      (r : Ext.Result (.presignGetObject key fileName mimeType disposition expiry)),
      (⟨.ext (.presignGetObject key fileName mimeType disposition expiry), r⟩ :
        Event Command Command.Resp) ∈ s.trace := by
  obtain ⟨⟨c, r⟩, hmem, hasked⟩ := List.mem_filterMap.mp h
  cases c with
  | ext x =>
    cases x with
    | presignGetObject key name mimeType field expiry =>
      cases hasked
      exact ⟨key, mimeType, expiry, r, hmem⟩
    | _ => cases hasked
  | _ => cases hasked

/-- A photo keeps its name. -/
theorem roundTrips_of_photo : ∃ (w : World server) (s : Session server) (disposition : String),
    Reachable (fun _ _ => True) (.init Sample.database) w ∧ w.sessions[1]? = some s ∧
      ("photo.jpg", disposition) ∈ s.trace.filterMap Sample.askedFor ∧
      ReadFile s.trace "photo.jpg" ∧
      (RoundTrips "attachment" "photo.jpg" disposition ↔ PlainName "photo.jpg") := by
  have hrun : ((World.init Sample.database : World server).run (fun _ _ => true)
      (Sample.uploadThenDownload "photo.jpg")).any (fun w => (w.sessions[1]?).any fun s =>
        decide (s.call.dispositionType = some "attachment") &&
        decide (("photo.jpg", "attachment; filename=\"photo.jpg\"") ∈
          s.trace.filterMap Sample.askedFor)) = true := by
    decide +kernel
  obtain ⟨w, hw, hs⟩ := exists_of_run (fun _ _ _ => trivial) hrun
  obtain ⟨s, hs, hasked⟩ := (Option.any_eq_true _ _).mp hs
  obtain ⟨hcall, hasked⟩ := Bool.and_eq_true_iff.mp hasked
  have hasked := of_decide_eq_true hasked
  obtain ⟨key, mimeType, expiry, r, hsigned⟩ := presigned_of_askedFor hasked
  exact ⟨w, s, _, hw, hs, hasked, roundTrips_iff hw hs (of_decide_eq_true hcall) hsigned⟩

/-- A name with a quote in it is cut off there, and the rest is no parameter. -/
theorem not_roundTrips_of_quote : ∃ (w : World server) (s : Session server) (disposition : String),
    Reachable (fun _ _ => True) (.init Sample.database) w ∧ w.sessions[1]? = some s ∧
      ("a\"b.jpg", disposition) ∈ s.trace.filterMap Sample.askedFor ∧
      ¬ RoundTrips "attachment" "a\"b.jpg" disposition := by
  have hrun : ((World.init Sample.database : World server).run (fun _ _ => true)
      (Sample.uploadThenDownload "a\"b.jpg")).any (fun w => (w.sessions[1]?).any fun s =>
        decide (("a\"b.jpg", "attachment; filename=\"a\"b.jpg\"") ∈
          s.trace.filterMap Sample.askedFor)) = true := by
    decide +kernel
  obtain ⟨w, hw, hs⟩ := exists_of_run (fun _ _ _ => trivial) hrun
  obtain ⟨s, hs, hasked⟩ := (Option.any_eq_true _ _).mp hs
  refine ⟨w, s, _, hw, hs, of_decide_eq_true hasked, ?_⟩
  unfold RoundTrips
  decide +kernel

end ExpenseSaas
