import Mathlib
import ExpenseSaas.Contract.Files
import ExpenseSaas.ReadCommitted.Beside
import ExpenseSaas.Runs.Schedules

/-!
# Attachments and the objects they name

The metadata of an attachment is a row, and its content is an object in a store
that no transaction covers. An upload writes the object first and the row
second, each of which can fail, and nothing ever takes an object away. So a row
that is there names an object that is there, however the requests interleave and
wherever they stop (`consistent_of_reachable`).

The argument needs three facts about a run. No two sessions are given the same
identifier (`Apart`), so that no upload writes over the object of another one
(`Kept`). And a row that is current anywhere was there at the start, or some
session has been told that its object is stored (`Backed`).
-/

namespace ExpenseSaas

open ReadCommitted Sql

/-! ## Keys -/

section

variable {t k u t' k' u' : UUID} {c : Char}

/-- Keys have no blanks. -/
theorem not_blank_of_mem_attachmentKey (h : c ∈ (attachmentKey t k u).toList) : c ≠ ' ' := by
  rintro rfl
  have hno : ∀ u, ' ' ∉ (uuidString u).toList := fun _ => not_mem_uuidString rfl
  rw [toList_attachmentKey] at h
  simp [hno] at h

/-- What comes after the last slash. -/
theorem lastSegment_eq {xs ys cs ds : List Char} (hc : '/' ∉ cs) (hd : '/' ∉ ds)
    (h : xs ++ '/' :: cs = ys ++ '/' :: ds) : cs = ds := by
  have hlast : ∀ xs cs : List Char, '/' ∉ cs →
      (xs ++ '/' :: cs).reverse.takeWhile (· ≠ '/') = cs.reverse := by
    intro xs cs hcs
    rw [List.reverse_append, List.reverse_cons, List.append_assoc, List.takeWhile_append_of_pos]
    · simp
    · intro c hmem
      simp only [decide_eq_true_eq]
      rintro rfl
      exact hcs (List.mem_reverse.mp hmem)
  have hrev := hlast xs cs hc
  rw [h, hlast ys ds hd] at hrev
  exact (List.reverse_injective hrev).symm

/-- **The key names the attachment.** -/
theorem attachmentKey_inj (h : attachmentKey t k u = attachmentKey t' k' u') : u = u' := by
  have hlist := congrArg String.toList h
  rw [toList_attachmentKey, toList_attachmentKey] at hlist
  have hslash : ∀ u, '/' ∉ (uuidString u).toList := fun _ => not_mem_uuidString rfl
  exact Nat.repr_injective
    (String.toList_injective (lastSegment_eq (hslash u) (hslash u') hlist))

end

/-! ## Content -/

/-- The bytes a file of this type starts with. -/
def MimeType.leading : MimeType → Option (List UInt8)
  | .imageJpeg => some [0xFF, 0xD8, 0xFF]
  | .imagePng => some [0x89, 0x50, 0x4E, 0x47, 0x0D, 0x0A, 0x1A, 0x0A]
  | .applicationPDF => some [0x25, 0x50, 0x44, 0x46]
  | .other _ => none

/-- What is detected as one of the accepted types starts like it. -/
theorem leading_of_detected {content : List UInt8} {mimeType : MimeType}
    (h : detectMimeType content = mimeType) (hvalid : mimeType.isValid = true) :
    ∃ bytes, mimeType.leading = some bytes ∧ bytes <+: content := by
  unfold detectMimeType at h
  split at h
  · rw [← h] at hvalid
    cases hvalid
  split at h
  · rename_i hjpeg
    subst h
    exact ⟨_, rfl, List.isPrefixOf_iff_prefix.mp hjpeg⟩
  split at h
  · rename_i hpng
    subst h
    exact ⟨_, rfl, List.isPrefixOf_iff_prefix.mp hpng⟩
  split at h
  · rename_i hpdf
    subst h
    exact ⟨_, rfl, List.isPrefixOf_iff_prefix.mp hpdf⟩
  · rw [← h] at hvalid
    cases hvalid

/-! ## Rows -/

section

variable {d : Database} {clock o : Oracle} {p : CreateAttachmentParams} {a : Attachment}

/-- What fits a column without blanks at its end is stored as it is. -/
theorem varchar_eq {n : Nat} {s s' : String} (h : varchar n s = .ok s')
    (hs : ∀ c ∈ s.toList, c ≠ ' ') : s' = s := by
  obtain ⟨x, hx, hfits⟩ := Except.bind_eq_ok.mp h
  have hx : x = s := by
    unfold text at hx
    split at hx
    · cases hx
    · cases hx
      rfl
  subst hx
  split at hfits
  · cases hfits
    rfl
  · rename_i hlong
    split at hfits
    · -- What would be cut off is blank, and there is some of it.
      rename_i hblank
      have hne : (x.toList.drop n) ≠ [] := by
        intro hnil
        have := List.drop_eq_nil_iff.mp hnil
        omega
      obtain ⟨c, hc⟩ := List.exists_mem_of_ne_nil _ hne
      have hsp := List.all_eq_true.mp hblank c hc
      exact absurd (of_decide_eq_true hsp) (hs c (List.mem_of_mem_drop hc))
    · cases hfits

/-- What the row says about the object. -/
theorem attachmentRow_object (h : attachmentRow p d clock o = .ok a) :
    varchar 500 p.s3Key = .ok a.s3Key ∧ a.fileSize = p.fileSize ∧ a.mimeType = p.mimeType ∧
      0 < p.fileSize ∧ p.fileSize ≤ 5242880 ∧ p.mimeType.isValid = true := by
  obtain ⟨name, _, h⟩ := Except.bind_eq_ok.mp h
  obtain ⟨fileName, _, h⟩ := Except.bind_eq_ok.mp h
  obtain ⟨s3Key, hkey, h⟩ := Except.bind_eq_ok.mp h
  obtain ⟨_, hsize, h⟩ := Except.bind_eq_ok.mp h
  obtain ⟨_, hmime, h⟩ := Except.bind_eq_ok.mp h
  obtain ⟨_, _, h⟩ := Except.bind_eq_ok.mp h
  obtain ⟨_, _, h⟩ := Except.bind_eq_ok.mp h
  obtain ⟨_, _, h⟩ := Except.bind_eq_ok.mp h
  cases h
  have hsize := of_decide_eq_true (check_eq_ok.mp hsize)
  exact ⟨hkey, rfl, rfl, hsize.1, hsize.2, check_eq_ok.mp hmime⟩

end

/-! ## The store -/

/-- An object: its bytes, and the content type it was stored with. -/
structure StoredObject where
  content : List UInt8
  contentType : MimeType
  deriving DecidableEq

/-- The objects, by key. -/
abbrev Bucket : Type := String → Option StoredObject

/-- The object that an action asks the store to keep. -/
def uploading (w : World server) : Action server → Option (String × StoredObject)
  | .step i _ => match w.sessions[i]? with
    | some s => match s.prog with
      | .exec (.ext (.upload key content contentType)) _ => some (key, ⟨content, contentType⟩)
      | _ => none
    | none => none
  | _ => none

/--
`storage.Upload`, from the outside: it stores the object, or it returns an error
and has stored the object or not. Nothing else changes the store.
-/
inductive Uploads (w : World server) : Action server → Bucket → Bucket → Prop where
  | idle {a : Action server} {b : Bucket} : uploading w a = none → Uploads w a b b
  | put {a : Action server} {b : Bucket} {key : String} {x : StoredObject} :
      uploading w a = some (key, x) → Uploads w a b (Function.update b key (some x))
  | lost {i : Nat} {o : Oracle} {b : Bucket} : o.failure.isSome → Uploads w (.step i o) b b

/-- What `uuid.New()` answers was never an identifier before. -/
def NewUUIDs (d₀ : Database) (w : World server) (a : Action server) : Prop :=
  ∀ (i : Nat) (o : Oracle) (s : Session server) (k : UUID → Program Outcome),
    a = .step i o → w.sessions[i]? = some s → s.prog = .exec (.ext .newUUID) k →
    d₀.attachments.find o.uuid = none ∧
      ∀ (j : Nat) (t : Session server), w.sessions[j]? = some t → ¬ Drew t.trace o.uuid

/-- Only calls on files are made, and identifiers do not repeat. -/
structure FileRun (d₀ : Database) (w : World server) (a : Action server) : Prop where
  calls : ∀ c, a = .start c → c.onFiles = true
  uuids : NewUUIDs d₀ w a

/-- The object of an attachment is there, and is what the row says. -/
structure Intact (b : Bucket) (a : Attachment) : Prop where
  size_pos : 1 ≤ a.fileSize
  size_le : a.fileSize ≤ 5242880
  stored : ∃ x, b a.s3Key = some x ∧ x.contentType = a.mimeType ∧
    (x.content.length : Int) = a.fileSize ∧
    ∃ bytes, a.mimeType.leading = some bytes ∧ bytes <+: x.content

/-- The key is the one made from what the row says. -/
def Keyed (a : Attachment) : Prop := a.s3Key = attachmentKey a.tenantID a.reportID a.attachmentID

/-- **No metadata dangles**: every row has its key, and every live one its object. -/
structure Consistent (d : Database) (b : Bucket) : Prop where
  keyed : ∀ k a, d.attachments.find k = some a → Keyed a
  intact : ∀ k a, d.attachments.find k = some a → a.deletedAt = none → Intact b a

section

variable {w w' : World server} {a : Action server}

theorem uploading_of_step {i : Nat} {o : Oracle} {s : Session server} {key : String}
    {content : List UInt8} {contentType : MimeType}
    {k : Except GoError Unit → Program Outcome} (hs : w.sessions[i]? = some s)
    (hp : s.prog = .exec (.ext (.upload key content contentType)) k) :
    uploading w (.step i o) = some (key, ⟨content, contentType⟩) := by
  simp only [uploading, hs, hp]

theorem uploading_eq_some {key : String} {x : StoredObject} (h : uploading w a = some (key, x)) :
    ∃ i o s k, a = .step i o ∧ w.sessions[i]? = some s ∧
      s.prog = .exec (.ext (.upload key x.content x.contentType)) k := by
  cases a with
  | step i o =>
    simp only [uploading] at h
    split at h
    · rename_i s hs
      split at h
      · rename_i key' content contentType k hp
        cases h
        exact ⟨i, o, s, k, rfl, hs, hp⟩
      · cases h
    · cases h
  | _ => cases h

/-- An object the store says it has is one it has just been given, or had before. -/
theorem uploaded_of_step (hstep : w.step a = some w') {b b' : Bucket} (hb : Uploads w a b b')
    {i : Nat} {s' : Session server} (hs' : w'.sessions[i]? = some s') {key : String}
    {content : List UInt8} {contentType : MimeType} (h : Uploaded s'.trace key content contentType) :
    (∃ s, w.sessions[i]? = some s ∧ Uploaded s.trace key content contentType) ∨
      b' = Function.update b key (some ⟨content, contentType⟩) := by
  rcases World.ext_of_step hstep hs' h with hold | ⟨o, s, k, rfl, hs, hp, hr⟩
  · exact Or.inl hold
  · have hup := uploading_of_step (o := o) hs hp
    cases hb with
    | idle hidle =>
      rw [hup] at hidle
      cases hidle
    | put hput =>
      rw [hup] at hput
      cases hput
      exact Or.inr rfl
    | lost hlost =>
      -- The store has refused it, so that its answer was no success.
      obtain ⟨e, he⟩ := Option.isSome_iff_exists.mp hlost
      simp only [Ext.answer, Oracle.unless, he] at hr
      cases hr

end

/-! ## Runs -/

section

variable {d₀ : Database} {b₀ b : Bucket} {w : World server}

/-- A session of such a run has kept its promise about the store. -/
theorem asked_file (h : Reachable (FileRun d₀) (.init d₀) w) {i : Nat} {s : Session server}
    (hs : w.sessions[i]? = some s) {c : Command} {k : Command.Resp c → Program Outcome}
    (hp : s.prog = .exec c k) : FileAsks s.trace c :=
  @Reachable.asked server (FileRun d₀) d₀ w i s (fun _ => FileAsks) (fun _ _ _ => True)
    (fun _ c hc => call_filesAsk (hc.calls c rfl)) h hs c k hp

/-- The key of an object was made from an identifier the session was given. -/
theorem drew_of_uploaded (h : Reachable (FileRun d₀) (.init d₀) w) {i : Nat} {s : Session server}
    (hs : w.sessions[i]? = some s) {key : String} {content : List UInt8} {contentType : MimeType}
    (hup : Uploaded s.trace key content contentType) :
    ∃ t k u, key = attachmentKey t k u ∧ Drew s.trace u := by
  obtain ⟨l, l', hl⟩ := List.append_of_mem hup
  have hpre : l ++ [⟨.ext (.upload key content contentType), .ok ()⟩] <+: s.trace := by
    rw [hl]
    exact ⟨l', by simp⟩
  obtain ⟨_, t, k, u, hkey, hdrew⟩ : FileAsks l (.ext (.upload key content contentType)) :=
    @Reachable.asked_before server (FileRun d₀) d₀ w i s (fun _ => FileAsks) (fun _ _ _ => True)
      (fun _ c hc => call_filesAsk (hc.calls c rfl)) h hs l _ hpre
  exact ⟨t, k, u, hkey, List.IsPrefix.subset ((List.prefix_append _ _).trans hpre) hdrew⟩

/-- Nobody is given an identifier that an old attachment has, or another session. -/
theorem drawn_once (h : Reachable (FileRun d₀) (.init d₀) w) {i j : Nat} {s t : Session server}
    {u : UUID} (hs : w.sessions[i]? = some s) (ht : w.sessions[j]? = some t) (hsu : Drew s.trace u)
    (htu : Drew t.trace u) : i = j ∧ d₀.attachments.find u = none := by
  refine h.invariant (I := fun w => ∀ (i j : Nat) (s t : Session server) (u : UUID),
    w.sessions[i]? = some s → w.sessions[j]? = some t → Drew s.trace u → Drew t.trace u →
      i = j ∧ d₀.attachments.find u = none) ?_ (fun w w' a _ ih hc hstep => ?_) i j s t u hs ht hsu htu
  · intro i j s t u hs
    cases hs
  · intro i j s t u hs ht hsu htu
    rcases World.ext_of_step hstep hs hsu with ⟨s, hs, hsu⟩ | ⟨o, s, k, rfl, hs, hp, rfl⟩ <;>
      rcases World.ext_of_step hstep ht htu with ⟨t, ht, htu⟩ | ⟨o', t, k', ha, ht, hp', hu⟩
    · exact ih i j s t u hs ht hsu htu
    · subst ha
      cases hu
      exact absurd hsu ((hc.uuids j o' t k' rfl ht hp').2 i s hs)
    · exact absurd htu ((hc.uuids i o s k rfl hs hp).2 j t ht)
    · cases ha
      exact ⟨rfl, (hc.uuids i o s k rfl hs hp).1⟩

/-- What the store has said it has, and what it had at the start, it has. -/
structure Kept (d₀ : Database) (b₀ : Bucket) (w : World server) (b : Bucket) : Prop where
  uploaded : ∀ (i : Nat) (s : Session server) (key : String) (content : List UInt8)
    (contentType : MimeType), w.sessions[i]? = some s → Uploaded s.trace key content contentType →
    b key = some ⟨content, contentType⟩
  old : ∀ t k u, d₀.attachments.find u ≠ none →
    b (attachmentKey t k u) = b₀ (attachmentKey t k u)

/-- **No object is written over.** -/
theorem kept_of_reachable (h : ReachableBeside (FileRun d₀) Uploads (.init d₀) b₀ w b) :
    Kept d₀ b₀ w b := by
  refine h.invariant ⟨?_, fun _ _ _ _ => rfl⟩ fun w w' a b b' hr ih hc hstep hb => ?_
  · intro i s key content contentType hs
    cases hs
  -- An upload goes to a key that nobody has been told about, and no old row has.
  have hfresh : ∀ {key x}, uploading w a = some (key, x) →
      (∃ t k u, key = attachmentKey t k u ∧ d₀.attachments.find u = none) ∧
      ∀ (i : Nat) (s : Session server) (content : List UInt8) (contentType : MimeType),
        w.sessions[i]? = some s → ¬ Uploaded s.trace key content contentType := by
    intro key x hup
    obtain ⟨j, o, t, kont, rfl, ht, hp⟩ := uploading_eq_some hup
    obtain ⟨hnone, t', k, u, hkey, hu⟩ := asked_file hr ht hp
    refine ⟨⟨t', k, u, hkey, (drawn_once hr ht ht hu hu).2⟩, ?_⟩
    intro i s content contentType hs hdone
    obtain ⟨t'', k', u', hkey', hu'⟩ := drew_of_uploaded hr hs hdone
    obtain rfl := attachmentKey_inj (hkey.symm.trans hkey')
    obtain ⟨rfl, _⟩ := drawn_once hr hs ht hu' hu
    cases hs.symm.trans ht
    exact hnone _ _ _ _ hdone
  constructor
  · intro i s' key content contentType hs' hdone
    rcases uploaded_of_step hstep hb hs' hdone with ⟨s, hs, hdone⟩ | rfl
    · have hold := ih.uploaded i s key content contentType hs hdone
      cases hb with
      | idle hidle => exact hold
      | lost hlost => exact hold
      | @put _ _ key' x hput =>
        have hne : key ≠ key' := by
          rintro rfl
          exact (hfresh hput).2 i s content contentType hs hdone
        rw [Function.update_of_ne hne]
        exact hold
    · exact Function.update_self key _ b
  · intro t k u hu
    have hold := ih.old t k u hu
    cases hb with
    | idle hidle => exact hold
    | lost hlost => exact hold
    | @put _ _ key' x hput =>
      obtain ⟨t', k', u', rfl, hnone⟩ := (hfresh hput).1
      have hne : attachmentKey t k u ≠ attachmentKey t' k' u' := by
        intro heq
        rw [attachmentKey_inj heq] at hu
        exact hu hnone
      rw [Function.update_of_ne hne]
      exact hold

/-- The row was there at the start, or some session was told that its object is stored. -/
inductive Backed (d₀ : Database) (w : World server) (a : Attachment) : Prop where
  | old : d₀.attachments.find a.attachmentID = some a → Backed d₀ w a
  | uploaded {i : Nat} {s : Session server} {content : List UInt8} : w.sessions[i]? = some s →
      Uploaded s.trace a.s3Key content a.mimeType → a.fileSize = content.length →
      0 < a.fileSize → a.fileSize ≤ 5242880 → detectMimeType content = a.mimeType →
      a.mimeType.isValid = true → Backed d₀ w a

theorem Backed.step {w' : World server} {act : Action server} {a : Attachment} (h : Backed d₀ w a)
    (hstep : w.step act = some w') : Backed d₀ w' a := by
  cases h with
  | old hold => exact .old hold
  | uploaded hs hup hsize hpos hle hdetect hvalid =>
    obtain ⟨s', hs', hgrows⟩ := World.trace_grows hstep hs
    exact .uploaded hs' (hgrows.subset hup) hsize hpos hle hdetect hvalid

/-- A session that writes a live attachment has been told that its object is stored. -/
theorem backed_of_writing (h : Reachable (FileRun d₀) (.init d₀) w) {i : Nat} {s : Session server}
    (hs : w.sessions[i]? = some s) {q : Stmt} {t : Txn server} {a : Attachment}
    (hv : Writing w.db (w.others i) s q t (.attachment a))
    (hkeyed : ∀ x ∈ (s.view w.db).attachments.rows, Keyed x) :
    Keyed a ∧ (a.deletedAt = none → Backed d₀ w a) := by
  obtain ⟨k, hp⟩ := hv.prog
  have hask := asked_file h hs hp
  obtain ⟨snap, o, hw⟩ := hv.writes
  have hw : AttachmentWrite snap (s.view w.db) t.clock o q a := attachment_writes hw
  cases hw with
  | @create p a hrow =>
    obtain ⟨hkey, content, hup, hsize, hdetect⟩ := hask
    obtain ⟨hs3, hfile, hmime, hpos, hle, hvalid⟩ := attachmentRow_object hrow
    obtain ⟨hid, hreport, htenant, _, _⟩ := attachmentRow_ok hrow
    have hs3 : a.s3Key = p.s3Key := by
      refine varchar_eq hs3 fun c hc => ?_
      rw [hkey] at hc
      exact not_blank_of_mem_attachmentKey hc
    have hstored : Uploaded s.trace a.s3Key content a.mimeType := by
      rw [hs3, hmime]
      exact hup
    refine ⟨?_, fun _ => .uploaded hs hstored ?_ ?_ ?_ ?_ ?_⟩
    · unfold Keyed
      rw [hs3, hkey, hid, hreport, htenant]
    · rw [hfile, hsize]
    · rw [hfile]
      exact hpos
    · rw [hfile]
      exact hle
    · rw [hmime]
      exact hdetect
    · rw [hmime]
      exact hvalid
  | softDelete hx _ =>
    have hkey := hkeyed _ hx
    exact ⟨hkey, fun hlive => by cases hlive⟩
  | softDeleteOfItem hx _ =>
    have hkey := hkeyed _ hx
    exact ⟨hkey, fun hlive => by cases hlive⟩
  | softDeleteAll hx _ =>
    have hkey := hkeyed _ hx
    exact ⟨hkey, fun hlive => by cases hlive⟩

/-- **Every live attachment that is current anywhere has its object.** -/
theorem backed_of_shows (h₀ : ∀ k a, d₀.attachments.find k = some a → Keyed a)
    (h : Reachable (FileRun d₀) (.init d₀) w) : ∀ (k : RowId) (a : Attachment),
      w.Shows k (Version.attachment a) → Keyed a ∧ (a.deletedAt = none → Backed d₀ w a) := by
  refine h.invariant (I := fun w => ∀ (k : RowId) (a : Attachment), w.Shows k (Version.attachment a) →
    Keyed a ∧ (a.deletedAt = none → Backed d₀ w a)) ?_ fun w w' act hr ih _ hstep => ?_
  · rintro k a (hget | ⟨i, s, hs, _⟩)
    · have hfind : d₀.attachments.find a.attachmentID = some a := by
        obtain rfl := id_of_server_get hget
        exact get_attachment.mp hget
      exact ⟨h₀ _ a hfind, fun _ => .old hfind⟩
    · cases hs
  intro k a hshows
  have hkeep : w.Shows k (Version.attachment a) → Keyed a ∧ (a.deletedAt = none → Backed d₀ w' a) :=
    fun hold => ⟨(ih k a hold).1, fun hlive => ((ih k a hold).2 hlive).step hstep⟩
  rcases World.shows_of_step hstep with hold | ⟨i, s, q, t, x, hs, hv, hnew⟩
  · exact hkeep (hold k _ hshows)
  · rcases hnew k _ hshows with hold | ⟨_, rfl⟩
    · exact hkeep hold
    · have hkeyed : ∀ x ∈ (s.view w.db).attachments.rows, Keyed x := by
        intro x hx
        have hget : server.get (s.view w.db) (.attachment x.attachmentID) = some (.attachment x) :=
          (attachmentRows.mem_rows _ _).mp hx
        exact (ih _ x (World.shows_of_view hs hget)).1
      obtain ⟨hkey, hback⟩ := backed_of_writing hr hs hv hkeyed
      exact ⟨hkey, fun hlive => (hback hlive).step hstep⟩

/-! ## No metadata dangles -/

theorem intact_of_uploaded (hb : Kept d₀ b₀ w b) {i : Nat} {s : Session server} {a : Attachment}
    {content : List UInt8} (hs : w.sessions[i]? = some s)
    (hup : Uploaded s.trace a.s3Key content a.mimeType) (hsize : a.fileSize = content.length)
    (hpos : 0 < a.fileSize) (hle : a.fileSize ≤ 5242880)
    (hdetect : detectMimeType content = a.mimeType) (hvalid : a.mimeType.isValid = true) :
    Intact b a where
  size_pos := hpos
  size_le := hle
  stored := ⟨_, hb.uploaded i s _ _ _ hs hup, rfl, hsize.symm, leading_of_detected hdetect hvalid⟩

/-- **Attachment metadata never dangles**, and no two rows share a key. -/
theorem consistent_of_reachable (h₀ : Consistent d₀ b₀)
    (h : ReachableBeside (FileRun d₀) Uploads (.init d₀) b₀ w b) :
    Consistent w.db b ∧ ∀ k k' a a', w.db.attachments.find k = some a →
      w.db.attachments.find k' = some a' → a.s3Key = a'.s3Key → a = a' := by
  have hkept := kept_of_reachable h
  have hbacked := backed_of_shows h₀.keyed h.reachable
  have hshown : ∀ {k a}, w.db.attachments.find k = some a → w.Shows (RowId.attachment k) (Version.attachment a) :=
    fun hfind => Or.inl (get_attachment.mpr hfind)
  refine ⟨⟨fun k a hfind => (hbacked _ a (hshown hfind)).1, fun k a hfind hlive => ?_⟩, ?_⟩
  · obtain ⟨hkeyed, hback⟩ := hbacked _ a (hshown hfind)
    cases hback hlive with
    | old hold =>
      obtain ⟨hpos, hle, hstored⟩ := h₀.intact _ a hold hlive
      refine ⟨hpos, hle, ?_⟩
      rw [hkeyed, hkept.old _ _ _ (by rw [hold]; simp), ← hkeyed]
      exact hstored
    | uploaded hs hup hsize hpos hle hdetect hvalid =>
      exact intact_of_uploaded hkept hs hup hsize hpos hle hdetect hvalid
  · intro k k' a a' hfind hfind' hkey
    have hkeyed := (hbacked _ a (hshown hfind)).1
    have hkeyed' := (hbacked _ a' (hshown hfind')).1
    have hid : a.attachmentID = a'.attachmentID :=
      attachmentKey_inj (hkeyed.symm.trans (hkey.trans hkeyed'))
    have hk : a.attachmentID = k := Table.key_of_find hfind
    have hk' : a'.attachmentID = k' := Table.key_of_find hfind'
    rw [← hk, hid, hk'] at hfind
    exact Option.some.inj (hfind.symm.trans hfind')

end

/-! A run of one upload, with a store that takes everything. -/

/-- What becomes of the objects when every upload is stored. -/
def stored (w : World server) (a : Action server) (b : Bucket) : Bucket :=
  match uploading w a with
  | none => b
  | some (key, x) => Function.update b key (some x)

theorem uploads_stored (w : World server) (a : Action server) (b : Bucket) :
    Uploads w a b (stored w a b) := by
  unfold stored
  cases hup : uploading w a with
  | none => exact .idle hup
  | some kx => exact .put hup

/-- The identifier an event gave out. -/
def drawn : Event Command Command.Resp → Option UUID
  | ⟨.ext .newUUID, u⟩ => some u
  | _ => none

/-- A check on the actions of a schedule that implies `FileRun`. -/
def fileRun (d₀ : Database) (w : World server) : Action server → Bool
  | .start c => c.onFiles
  | .step _ o => (d₀.attachments.find o.uuid).isNone &&
      w.sessions.all fun t => t.trace.all fun ev => decide (drawn ev ≠ some o.uuid)
  | _ => true

theorem fileRun_of_check {d₀ : Database} (w : World server) (a : Action server)
    (h : fileRun d₀ w a = true) : FileRun d₀ w a := by
  constructor
  · rintro c rfl
    exact h
  · rintro i o s k rfl _ _
    simp only [fileRun, Bool.and_eq_true, List.all_eq_true, decide_eq_true_eq,
      Option.isNone_iff_eq_none] at h
    refine ⟨h.1, fun j t ht hdrew => ?_⟩
    exact h.2 t (List.mem_of_getElem? ht) _ hdrew rfl

/-- A file of three bytes. -/
def Sample.upload : FileUpload :=
  ⟨Go.lit "photo", 3, .imageJpeg, [0xFF, 0xD8, 0xFF], rfl, by decide, rfl⟩

theorem consistent_of_upload : ∃ (w : World server) (b : Bucket),
    ReachableBeside (FileRun Sample.database) Uploads (.init Sample.database) (fun _ => none) w b ∧
      (w.db.attachments.find 104).isSome = true ∧
      (Consistent w.db b ∧ ∀ k k' a a', w.db.attachments.find k = some a →
        w.db.attachments.find k' = some a' → a.s3Key = a'.s3Key → a = a') := by
  have hrun : ((World.init Sample.database : World server).runBeside (fileRun Sample.database)
      stored (fun _ => none) ([.start (.tenant Sample.owner (.uploadAttachment 1 2 Sample.upload))] ++
        turns 0 8 100)).any (fun r => (r.1.db.attachments.find 104).isSome) = true := by
    decide +kernel
  obtain ⟨⟨w, b⟩, hrun, hfind⟩ := (Option.any_eq_true _ _).mp hrun
  have hreach := reachableBeside_of_run (T := Uploads) fileRun_of_check uploads_stored hrun .init
  have h₀ : Consistent Sample.database (fun _ => none) := by
    constructor
    · intro k a hfind
      cases hfind
    · intro k a hfind
      cases hfind
  exact ⟨w, b, hreach, hfind, consistent_of_reachable h₀ hreach⟩

end ExpenseSaas
