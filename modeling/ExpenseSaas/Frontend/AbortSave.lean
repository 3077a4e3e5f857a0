import ExpenseSaas.Basic
import ExpenseSaas.Frontend.ItemPanel

/-!
# Closing the panel stops the saves

A save in progress that is not stopped is the only one, runs in the mounted panel while
this is open, and has its controller in the ref, if there is anything to upload; a stopped
save is aborted, and looks at its signal before it does anything that can be seen
(`Inv`). This holds in every run in which the panel is closed or the changes discarded
only while each save can still be stopped, and no save with files starts beside one of the
same panel that has not left yet (`Heeds`). So a stopped save does nothing more, and an
upload is always within the reach of `abortSequentialUpload` (`abortStops`).
-/

namespace ExpenseSaas

namespace Frontend

/-! ## Saves -/

namespace Save

/-- In progress, and not stopped. -/
def Live (r : Save) : Prop := r.phase ≠ .done ∧ r.stopped = false

/-- It has left, or is aborted and comes to the next check of its signal first. -/
def Halted (r : Save) : Prop :=
  match r.phase with
  | .creating => r.aborted = true ∧ 0 < r.totalFiles
  | .uploading k stage => r.aborted = true ∧ stage.hears = false ∧ k + 1 < r.totalFiles
  | .done => True

/-- If it is aborted now, it stops: it awaits an upload, and if it is the last one, something that
hears of the signal. -/
def stoppable (r : Save) : Bool :=
  match r.phase with
  | .uploading k stage => stage.hears || k + 1 < r.totalFiles
  | _ => false

/-- It awaits its item, and has files to upload. -/
def awaitsItem (r : Save) : Bool := r.phase = .creating && 0 < r.totalFiles

end Save

namespace Panel

variable {s s' : Panel} {i : Nat} {r : Save} {out : Panel × List Effect}

/-- **When the user may act**: a save with files starts when no save of the panel is in progress;
the panel is closed while every save that is not aborted can be stopped, or the changes are
discarded while it can be or awaits its item and has files. -/
def Heeds (s : Panel) : PanelEvent → Prop
  | .save _ => s.pendingFiles = 0 ∨ ∀ r ∈ s.saves, r.formKey = s.formKey → r.phase = .done
  | .close => s.isSequentialUploading = true ∨ s.isDirty = false →
      ∀ r ∈ s.saves, r.phase ≠ .done → r.aborted = false → r.stoppable = true
  | .discard => ∀ r ∈ s.saves, r.phase ≠ .done → r.aborted = false →
      r.stoppable = true ∨ r.awaitsItem = true
  | _ => True

/-- The panels that come about in runs whose steps all meet a condition. -/
inductive Reachable (C : Panel → PanelEvent → Prop) : Panel → Prop where
  | init : Reachable C init
  | step {s s' : Panel} {e : PanelEvent} {fx : List Effect} : Reachable C s → C s e →
      s.step e = some (s', fx) → Reachable C s'

/-- Nothing more is seen of the saves that were in progress when the user closed the panel or
discarded the changes, and whatever uploads is aborted by `abortSequentialUpload`. -/
structure AbortStops (s : Panel) : Prop where
  silent : ∀ e s' fx, s.step e = some (s', fx) → ∀ f ∈ fx, ∀ r : Save,
    s.saves[f.save]? = some r → r.stopped = false
  reached : ∀ (i : Nat) (r : Save) (k : Nat) (stage : UploadStage), s.saves[i]? = some r →
    r.phase = .uploading k stage → ∀ r' : Save, s.abortSequentialUpload.saves[i]? = some r' →
    r'.aborted = true

/-! ## What a step does -/

/-- What the user does, one by one. -/
inductive Acts (s : Panel) : PanelEvent → Panel → Prop where
  | edit {dirty} : Acts s (.edit dirty) { s with isFormDirty := dirty }
  | choose {files} : Acts s (.choose files) { s with pendingFiles := files }
  | save {afterSubmit} (hopen : s.isOpen = true) (hcreate : s.createIsPending = false)
      (hflag : s.isSequentialUploading = false) :
      Acts s (.save afterSubmit) (s.handleAddModeSubmit afterSubmit)
  | close : Acts s .close s.handleCloseAttempt
  | discard : Acts s .discard s.handleDiscard
  | discardCancel : Acts s .discardCancel { s with isDiscardDialogOpen := false }
  | addItem : Acts s .addItem { s with isOpen := true, mode := .add }
  | openItem {editing mode} (hclosed : s.isOpen = false) : Acts s (.openItem editing) (s.remount mode)

/-- What a save does when something it awaits arrives, one by one. -/
inductive Answers (s : Panel) (i : Nat) (r : Save) : Panel × List Effect → Prop where
  | notCreated (hphase : r.phase = .creating) : Answers s i r (s.leave i r, [])
  | createdAlone (hphase : r.phase = .creating) (hfiles : r.totalFiles = 0) :
      Answers s i r (s.succeed i r)
  | created (hphase : r.phase = .creating) (hfiles : 0 < r.totalFiles) :
      Answers s i r ((s.setUploading r true).uploadFrom i r 0)
  | wait {k stage stage'} (hphase : r.phase = .uploading k stage) (hhears : stage.hears = true) :
      Answers s i r (s.setSave i { r with phase := .uploading k stage' }, [])
  | uploaded {k stage} (hphase : r.phase = .uploading k stage) (hhears : stage.hears = true) :
      Answers s i r (s.uploadFrom i r (k + 1))
  | failed {k stage} (hphase : r.phase = .uploading k stage) : Answers s i r (s.uploadFailed i r k)
  | deaf {k stage} (hphase : r.phase = .uploading k stage) (haborted : r.aborted = true) :
      Answers s i r ((s.setUploading r false).leave i r, [])
  | retry {k stage stage'} (hphase : r.phase = .uploading k stage) (haborted : r.aborted = false) :
      Answers s i r (s.setSave i { r with phase := .uploading k stage' }, [.upload i])

/-- The answer to the item itself. -/
theorem answers_of_created {i : Nat} {ok : Bool} (h : s.step (.created i ok) = some out) :
    ∃ r, s.saves[i]? = some r ∧ Answers s i r out := by
  simp only [step, Option.bind_eq_bind, Option.bind_eq_some_iff] at h
  obtain ⟨r, hr, h⟩ := h
  refine ⟨r, hr, ?_⟩
  split at h
  · next hphase =>
    split at h
    · cases h
      exact .notCreated hphase
    · split at h
      · next hfiles =>
        cases h
        exact .createdAlone hphase hfiles
      · next hfiles =>
        cases h
        exact .created hphase (Nat.pos_of_ne_zero hfiles)
  · cases h

/-- The answer to the upload of a file. -/
theorem answers_of_answer {i : Nat} {a : UploadAnswer} (h : s.step (.answer i a) = some out) :
    ∃ r, s.saves[i]? = some r ∧ Answers s i r out := by
  simp only [step, Option.bind_eq_bind, Option.bind_eq_some_iff] at h
  obtain ⟨r, hr, h⟩ := h
  refine ⟨r, hr, ?_⟩
  split at h
  · next hphase =>
    cases h
    exact .wait hphase rfl
  · next hphase _ =>
    split at h
    · next hhears =>
      split at h
      · cases h
        exact .uploaded hphase hhears
      · cases h
        exact .failed hphase
      · cases h
        exact .wait hphase hhears
    · cases h
  · cases h

/-- The answer to the refresh of the token. -/
theorem answers_of_refreshed {i : Nat} {ok : Bool} (h : s.step (.refreshed i ok) = some out) :
    ∃ r, s.saves[i]? = some r ∧ Answers s i r out := by
  simp only [step, Option.bind_eq_bind, Option.bind_eq_some_iff] at h
  obtain ⟨r, hr, h⟩ := h
  refine ⟨r, hr, ?_⟩
  split at h
  · next hphase =>
    split at h
    · cases h
      exact .failed hphase
    · split at h
      · next haborted =>
        cases h
        exact .deaf hphase haborted
      · next haborted =>
        cases h
        exact .retry hphase (Bool.eq_false_iff.mpr haborted)
  · cases h

/-- The body of an error. -/
theorem answers_of_errorRead {i : Nat} (h : s.step (.errorRead i) = some out) :
    ∃ r, s.saves[i]? = some r ∧ Answers s i r out := by
  simp only [step, Option.bind_eq_bind, Option.bind_eq_some_iff] at h
  obtain ⟨r, hr, h⟩ := h
  refine ⟨r, hr, ?_⟩
  split at h
  · next hphase =>
    cases h
    exact .failed hphase
  · cases h

/-- **What happens is the user's doing, and nothing is seen of it, or a response to a save.** -/
theorem step_cases {e : PanelEvent} (h : s.step e = some out) :
    (out.2 = [] ∧ Acts s e out.1) ∨ ∃ i r, s.saves[i]? = some r ∧ Answers s i r out := by
  cases e with
  | edit dirty =>
    left
    simp only [step] at h
    split at h
    · cases h
      exact ⟨rfl, .edit⟩
    · cases h
  | choose files =>
    left
    simp only [step] at h
    split at h
    · cases h
      exact ⟨rfl, .choose⟩
    · cases h
  | save afterSubmit =>
    left
    simp only [step] at h
    split at h
    · next hguard =>
      cases h
      obtain ⟨hopen, _, _, hdisabled⟩ := hguard
      simp only [isSaveDisabled, Bool.not_or, Bool.and_eq_true, Bool.not_eq_true'] at hdisabled
      exact ⟨rfl, .save hopen hdisabled.1 hdisabled.2⟩
    · cases h
  | close =>
    left
    simp only [step] at h
    split at h
    · cases h
      exact ⟨rfl, .close⟩
    · cases h
  | discard =>
    left
    simp only [step] at h
    split at h
    · cases h
      exact ⟨rfl, .discard⟩
    · cases h
  | discardCancel =>
    left
    simp only [step] at h
    split at h
    · cases h
      exact ⟨rfl, .discardCancel⟩
    · cases h
  | addItem =>
    left
    simp only [step] at h
    split at h
    · cases h
    · cases h
      exact ⟨rfl, .addItem⟩
  | openItem editing =>
    left
    simp only [step] at h
    split at h
    · cases h
    · next hguard =>
      cases h
      exact ⟨rfl, .openItem (by simpa using fun hopen => hguard (.inl hopen))⟩
  | created i ok => exact .inr ⟨i, answers_of_created h⟩
  | answer i a => exact .inr ⟨i, answers_of_answer h⟩
  | refreshed i ok => exact .inr ⟨i, answers_of_refreshed h⟩
  | errorRead i => exact .inr ⟨i, answers_of_errorRead h⟩

/-! ## The invariant -/

/-- What is known of a save in progress that is not stopped. -/
structure Held (s : Panel) (i : Nat) (r : Save) : Prop where
  mounted : r.formKey = s.formKey
  isOpen : s.isOpen = true
  aborted : r.aborted = false
  ref : 0 < r.totalFiles → s.sequentialAbortControllerRef = some i
  flag : ∀ k stage, r.phase = .uploading k stage → s.isSequentialUploading = true
  unique : ∀ (j : Nat) (r' : Save), s.saves[j]? = some r' → r'.Live → j = i
  alone : 0 < r.totalFiles → ∀ (j : Nat) (r' : Save), s.saves[j]? = some r' → j ≠ i →
    r'.formKey = s.formKey → r'.phase = .done

/-- What holds between two turns. -/
structure Inv (s : Panel) : Prop where
  formKey_le : ∀ (i : Nat) (r : Save), s.saves[i]? = some r → r.formKey ≤ s.formKey
  file_lt : ∀ (i : Nat) (r : Save), s.saves[i]? = some r → ∀ k stage,
    r.phase = .uploading k stage → k < r.totalFiles
  halted : ∀ (i : Nat) (r : Save), s.saves[i]? = some r → r.stopped = true → r.Halted
  held : ∀ (i : Nat) (r : Save), s.saves[i]? = some r → r.Live → s.Held i r
  ref_live : ∀ i, s.sequentialAbortControllerRef = some i →
    ∃ r, s.saves[i]? = some r ∧ r.Live

theorem Inv.init : Inv init := by
  constructor <;> intro i <;> simp [Panel.init]

/-- No save is in progress but those that are stopped. -/
def Idle (s : Panel) : Prop := ∀ (i : Nat) (r : Save), s.saves[i]? = some r → ¬r.Live

/-- The saves are what they were, and none is live: nothing else matters. -/
theorem Inv.of_idle (hinv : s.Inv) (hsaves : s'.saves = s.saves) (hkey : s.formKey ≤ s'.formKey)
    (hidle : s.Idle) (href : s'.sequentialAbortControllerRef = none) : s'.Inv where
  formKey_le i r hr := Nat.le_trans (hinv.formKey_le i r (hsaves ▸ hr)) hkey
  file_lt i r hr := hinv.file_lt i r (hsaves ▸ hr)
  halted i r hr := hinv.halted i r (hsaves ▸ hr)
  held i r hr hlive := absurd hlive (hidle i r (hsaves ▸ hr))
  ref_live i hi := by
    rw [href] at hi
    cases hi

theorem Inv.ref_eq_none (hinv : s.Inv) (hidle : s.Idle) : s.sequentialAbortControllerRef = none := by
  cases href : s.sequentialAbortControllerRef with
  | none => rfl
  | some i =>
    obtain ⟨r, hr, hlive⟩ := hinv.ref_live i href
    exact absurd hlive (hidle i r hr)

/-- A state that differs in what no save looks at. -/
structure Same (s s' : Panel) : Prop where
  saves : s'.saves = s.saves
  formKey : s'.formKey = s.formKey
  isOpen : s.isOpen = true → s'.isOpen = true
  flag : s'.isSequentialUploading = s.isSequentialUploading
  ref : s'.sequentialAbortControllerRef = s.sequentialAbortControllerRef

theorem Inv.same (hinv : s.Inv) (h : s.Same s') : s'.Inv := by
  obtain ⟨hsaves, hkey, hopen, hflag, href⟩ := h
  refine ⟨?_, ?_, ?_, ?_, ?_⟩
  · rw [hsaves, hkey]
    exact hinv.formKey_le
  · rw [hsaves]
    exact hinv.file_lt
  · rw [hsaves]
    exact hinv.halted
  · intro i r hr hlive
    rw [hsaves] at hr
    obtain ⟨h₁, h₂, h₃, h₄, h₅, h₆, h₇⟩ := hinv.held i r hr hlive
    refine ⟨h₁.trans hkey.symm, hopen h₂, h₃, ?_, ?_, ?_, ?_⟩
    · rw [href]
      exact h₄
    · rw [hflag]
      exact h₅
    · rw [hsaves]
      exact h₆
    · rw [hsaves, hkey]
      exact h₇
  · rw [hsaves, href]
    exact hinv.ref_live

/-! ## A save that leaves -/

/-- What is left when a save leaves. -/
structure Leaves (s : Panel) (i : Nat) (r : Save) (s' : Panel) : Prop where
  saves : ∃ r' : Save, r'.phase = .done ∧ r'.formKey = r.formKey ∧ s'.saves = s.saves.set i r'
  formKey : s'.formKey = s.formKey
  isOpen : s'.isOpen = s.isOpen
  ref : s'.sequentialAbortControllerRef =
    if r.formKey = s.formKey then none else s.sequentialAbortControllerRef
  flag : r.formKey ≠ s.formKey → s'.isSequentialUploading = s.isSequentialUploading

@[simp] theorem leave_saves : (s.leave i r).saves = s.saves.set i { r with phase := .done } := by
  unfold leave setSave
  dsimp only
  split <;> rfl

@[simp] theorem leave_formKey : (s.leave i r).formKey = s.formKey := by
  unfold leave setSave
  dsimp only
  split <;> rfl

theorem leaves_leave {r₁ : Save} (hkey : r₁.formKey = r.formKey) : s.Leaves i r (s.leave i r₁) := by
  have hsaves : ∃ r' : Save, r'.phase = .done ∧ r'.formKey = r.formKey ∧
      s.saves.set i { r₁ with phase := .done } = s.saves.set i r' :=
    ⟨{ r₁ with phase := .done }, rfl, hkey, rfl⟩
  unfold leave setSave
  dsimp only
  split
  · next h =>
    rw [hkey] at h
    exact ⟨hsaves, rfl, rfl, (if_pos h).symm, fun hne => absurd h hne⟩
  · next h =>
    rw [hkey] at h
    exact ⟨hsaves, rfl, rfl, (if_neg h).symm, fun _ => rfl⟩

@[simp] theorem setUploading_saves (b : Bool) : (s.setUploading r b).saves = s.saves := by
  unfold setUploading
  split <;> rfl

@[simp] theorem setUploading_formKey (b : Bool) : (s.setUploading r b).formKey = s.formKey := by
  unfold setUploading
  split <;> rfl

@[simp] theorem setUploading_isOpen (b : Bool) : (s.setUploading r b).isOpen = s.isOpen := by
  unfold setUploading
  split <;> rfl

@[simp] theorem setUploading_ref (b : Bool) :
    (s.setUploading r b).sequentialAbortControllerRef = s.sequentialAbortControllerRef := by
  unfold setUploading
  split <;> rfl

theorem setUploading_flag_of_ne {b : Bool} (h : r.formKey ≠ s.formKey) :
    (s.setUploading r b).isSequentialUploading = s.isSequentialUploading := by
  unfold setUploading
  rw [if_neg h]

/-- Setting the flag first makes no difference. -/
theorem Leaves.of_setUploading {b : Bool} {r₁ : Save} (hkey : r₁.formKey = r.formKey)
    (h : (s.setUploading r₁ b).Leaves i r s') : s.Leaves i r s' where
  saves := by simpa using h.saves
  formKey := by simpa using h.formKey
  isOpen := by simpa using h.isOpen
  ref := by simpa using h.ref
  flag hne := by
    have hflag := h.flag (by simpa using hne)
    rw [hflag, setUploading_flag_of_ne (hkey ▸ hne)]

theorem leaves_uploaded {b b' : Bool} {r₁ : Save} (hkey : r₁.formKey = r.formKey) :
    s.Leaves i r (((s.setUploading r b).setUploading r₁ b').leave i r₁) :=
  ((leaves_leave hkey).of_setUploading hkey).of_setUploading rfl

/-- **Whoever leaves, the others are as before.** -/
theorem Inv.leaves (hinv : s.Inv) (hr : s.saves[i]? = some r) (hphase : r.phase ≠ .done)
    (h : s.Leaves i r s') : s'.Inv := by
  obtain ⟨⟨r', hdone, hkey, hsaves⟩, hformKey, hopen, href, hflag⟩ := h
  have hget : ∀ (j : Nat) (q : Save), s'.saves[j]? = some q → (j = i ∧ q = r') ∨
      (j ≠ i ∧ s.saves[j]? = some q) := fun j q hq => List.getElem?_of_set (hsaves ▸ hq)
  have hdead : ¬r'.Live := fun hlive => hlive.1 hdone
  -- a live save with files is alone in the panel, so the one that leaves is of another
  have hother : ∀ (j : Nat) (q : Save), s.saves[j]? = some q → q.Live → j ≠ i → 0 < q.totalFiles →
      r.formKey ≠ s.formKey := by
    intro j q hq hlive hne hfiles hmounted
    exact hphase ((hinv.held j q hq hlive).alone hfiles i r hr (Ne.symm hne) hmounted)
  refine ⟨?_, ?_, ?_, ?_, ?_⟩
  · intro j q hq
    rcases hget j q hq with ⟨_, rfl⟩ | ⟨_, hq⟩
    · rw [hkey, hformKey]
      exact hinv.formKey_le i r hr
    · rw [hformKey]
      exact hinv.formKey_le j q hq
  · intro j q hq k stage hk
    rcases hget j q hq with ⟨_, rfl⟩ | ⟨_, hq⟩
    · rw [hdone] at hk
      cases hk
    · exact hinv.file_lt j q hq k stage hk
  · intro j q hq hstopped
    rcases hget j q hq with ⟨_, rfl⟩ | ⟨_, hq⟩
    · unfold Save.Halted
      rw [hdone]
      trivial
    · exact hinv.halted j q hq hstopped
  · intro j q hq hlive
    rcases hget j q hq with ⟨_, rfl⟩ | ⟨hne, hq⟩
    · exact absurd hlive hdead
    have hheld := hinv.held j q hq hlive
    refine ⟨hheld.mounted.trans hformKey.symm, hopen.trans hheld.isOpen, hheld.aborted, ?_, ?_, ?_, ?_⟩
    · intro hfiles
      rw [href, if_neg (hother j q hq hlive hne hfiles)]
      exact hheld.ref hfiles
    · intro k stage hk
      have hfiles : 0 < q.totalFiles := Nat.zero_lt_of_lt (hinv.file_lt j q hq k stage hk)
      rw [hflag (hother j q hq hlive hne hfiles)]
      exact hheld.flag k stage hk
    · intro j' q' hq' hlive'
      rcases hget j' q' hq' with ⟨_, rfl⟩ | ⟨_, hq'⟩
      · exact absurd hlive' hdead
      · exact hheld.unique j' q' hq' hlive'
    · intro hfiles j' q' hq' hne' hmounted
      rcases hget j' q' hq' with ⟨_, rfl⟩ | ⟨_, hq'⟩
      · exact hdone
      · exact hheld.alone hfiles j' q' hq' hne' (hmounted.trans hformKey)
  · intro j hj
    rw [href] at hj
    split at hj
    · cases hj
    · next hne =>
      obtain ⟨q, hq, hlive⟩ := hinv.ref_live j hj
      refine ⟨q, ?_, hlive⟩
      have hji : i ≠ j := by
        rintro rfl
        cases hr.symm.trans hq
        exact hne (hinv.held i r hr hlive).mounted
      rw [hsaves, List.getElem?_set_ne hji]
      exact hq

/-- And if the one live save leaves, none is left. -/
theorem Leaves.idle (h : s.Leaves i r s') (hinv : s.Inv) (hr : s.saves[i]? = some r) (hlive : r.Live) :
    s'.Idle := by
  obtain ⟨⟨r', hdone, _, hsaves⟩, _⟩ := h
  intro j q hq hlive'
  rcases List.getElem?_of_set (hsaves ▸ hq) with ⟨_, rfl⟩ | ⟨hne, hq⟩
  · exact hlive'.1 hdone
  · exact hne ((hinv.held i r hr hlive).unique j q hq hlive')

/-! ## A save that goes on -/

/-- A save awaits an upload. -/
structure Uploads (s : Panel) (i : Nat) (r : Save) (s' : Panel) : Prop where
  saves : ∃ (r' : Save) (k : Nat) (stage : UploadStage), r'.phase = .uploading k stage ∧
    k < r.totalFiles ∧ r'.formKey = r.formKey ∧ r'.totalFiles = r.totalFiles ∧
    r'.aborted = r.aborted ∧ r'.stopped = r.stopped ∧ s'.saves = s.saves.set i r'
  formKey : s'.formKey = s.formKey
  isOpen : s'.isOpen = s.isOpen
  ref : s'.sequentialAbortControllerRef = s.sequentialAbortControllerRef
  flag : s'.isSequentialUploading = true

/-- **A live save that goes on is known as before.** -/
theorem Inv.uploads (hinv : s.Inv) (hr : s.saves[i]? = some r) (hlive : r.Live)
    (h : s.Uploads i r s') : s'.Inv := by
  obtain ⟨⟨r', k, stage, hphase, hk, hkey, hfiles, haborted, hstopped, hsaves⟩, hformKey, hopen, href,
    hflag⟩ := h
  have hget : ∀ (j : Nat) (q : Save), s'.saves[j]? = some q → (j = i ∧ q = r') ∨
      (j ≠ i ∧ s.saves[j]? = some q) := fun j q hq => List.getElem?_of_set (hsaves ▸ hq)
  have hheld := hinv.held i r hr hlive
  have hget_i : s'.saves[i]? = some r' := by
    rw [hsaves, List.getElem?_set]
    grind
  -- the save is still at a file, so it is not done
  have hlive' : r'.Live := by
    refine ⟨?_, hstopped.trans hlive.2⟩
    rw [hphase]
    intro hdone
    cases hdone
  refine ⟨?_, ?_, ?_, ?_, ?_⟩
  · intro j q hq
    rcases hget j q hq with ⟨_, rfl⟩ | ⟨_, hq⟩
    · -- the save keeps the form it was started from
      rw [hkey, hformKey]
      exact hinv.formKey_le i r hr
    · rw [hformKey]
      exact hinv.formKey_le j q hq
  · intro j q hq k' stage' hk'
    rcases hget j q hq with ⟨_, rfl⟩ | ⟨_, hq⟩
    · rw [hphase] at hk'
      cases hk'
      rw [hfiles]
      exact hk
    · exact hinv.file_lt j q hq k' stage' hk'
  · intro j q hq hstopped'
    rcases hget j q hq with ⟨_, rfl⟩ | ⟨_, hq⟩
    · rw [hlive'.2] at hstopped'
      cases hstopped'
    · exact hinv.halted j q hq hstopped'
  · intro j q hq hq_live
    rcases hget j q hq with ⟨rfl, rfl⟩ | ⟨hne, hq⟩
    · refine ⟨?_, hopen.trans hheld.isOpen, haborted.trans hheld.aborted, ?_, fun _ _ _ => hflag, ?_, ?_⟩
      · rw [hkey, hformKey]
        exact hheld.mounted
      · rw [hfiles, href]
        exact hheld.ref
      · intro j' q' hq' hlive₁
        rcases hget j' q' hq' with ⟨h, _⟩ | ⟨_, hq'⟩
        · exact h
        · exact hheld.unique j' q' hq' hlive₁
      · intro hpos j' q' hq' hne' hmounted
        rcases hget j' q' hq' with ⟨h, _⟩ | ⟨_, hq'⟩
        · exact absurd h hne'
        · exact hheld.alone (hfiles ▸ hpos) j' q' hq' hne' (hmounted.trans hformKey)
    · -- no other save is live
      exact absurd (hheld.unique j q hq hq_live) hne
  · intro j hj
    rw [href] at hj
    -- the reference is to the one live save, this one
    obtain ⟨q, hq, hq_live⟩ := hinv.ref_live j hj
    cases hheld.unique j q hq hq_live
    exact ⟨r', hget_i, hlive'⟩

/-- What is left when `afterSubmit` was called. -/
theorem Inv.submitted (hinv : s.Inv) (hidle : s.Idle) (a : AfterSubmit) : (s.submitted a).Inv := by
  cases a with
  | saveSuccess => exact hinv.of_idle rfl Nat.le.refl hidle (hinv.ref_eq_none hidle)
  | saveAndContinue => exact hinv.of_idle rfl (Nat.le_succ _) hidle rfl

/-- A live save succeeds; it may have set the flag before. -/
theorem Inv.succeed {s₁ : Panel} {r₁ : Save} (hinv : s.Inv) (hr : s.saves[i]? = some r)
    (hlive : r.Live) (h : s.Leaves i r (s₁.leave i r₁)) : (s₁.succeed i r₁).1.Inv := by
  have hleft := hinv.leaves hr hlive.1 h
  have hidle := h.idle hinv hr hlive
  unfold Panel.succeed
  dsimp only
  split
  · exact (hleft.same ⟨rfl, rfl, id, rfl, rfl⟩).submitted hidle _
  · exact hleft.submitted hidle _

/-- A live save goes on with its files, or succeeds. -/
theorem Inv.uploadFrom {n k : Nat} (hinv : s.Inv) (hr : s.saves[i]? = some r) (hlive : r.Live) :
    ((s.setUploading r true).uploadFrom i { r with failedCount := n } k).1.Inv := by
  have hheld := hinv.held i r hr hlive
  unfold Panel.uploadFrom
  split
  · next hk =>
    split
    · next haborted =>
      rw [hheld.aborted] at haborted
      cases haborted
    · refine hinv.uploads hr hlive ⟨⟨{ r with phase := .uploading k .fetching, failedCount := n }, k,
        .fetching, rfl, hk, rfl, rfl, rfl, rfl, ?_⟩, ?_, ?_, ?_, ?_⟩
      · simp [setSave]
      · simp [setSave]
      · simp [setSave]
      · simp [setSave]
      · simp [setSave, setUploading, hheld.mounted]
  · dsimp only
    split
    · exact hinv.leaves hr hlive.1 (leaves_uploaded rfl)
    · exact hinv.succeed hr hlive (leaves_uploaded rfl)

/-- The flag is up while a live save uploads. -/
theorem setUploading_true {k : Nat} {stage : UploadStage} (hinv : s.Inv) (hr : s.saves[i]? = some r)
    (hlive : r.Live) (hphase : r.phase = .uploading k stage) : s.setUploading r true = s := by
  have hflag := (hinv.held i r hr hlive).flag k stage hphase
  unfold setUploading
  split
  · cases s
    cases hflag
    rfl
  · rfl

/-- **A response keeps the invariant**, for a live save. -/
theorem Inv.answers (hinv : s.Inv) (hr : s.saves[i]? = some r) (hlive : r.Live)
    (h : s.Answers i r out) : out.1.Inv := by
  have hheld := hinv.held i r hr hlive
  have hwait {k : Nat} {stage stage' : UploadStage} (hphase : r.phase = .uploading k stage) :
      (s.setSave i { r with phase := .uploading k stage' }).Inv :=
    hinv.uploads hr hlive ⟨⟨{ r with phase := .uploading k stage' }, k, stage', rfl,
      hinv.file_lt i r hr k stage hphase, rfl, rfl, rfl, rfl, rfl⟩, rfl, rfl, rfl,
      hheld.flag k stage hphase⟩
  cases h with
  | notCreated _ => exact hinv.leaves hr hlive.1 (leaves_leave rfl)
  | createdAlone _ _ => exact hinv.succeed hr hlive (leaves_leave rfl)
  | created _ _ => exact hinv.uploadFrom hr hlive
  | wait hphase _ => exact hwait hphase
  | @uploaded k stage hphase _ =>
    have hgoes := @Inv.uploadFrom s i r r.failedCount (k + 1) hinv hr hlive
    rw [setUploading_true hinv hr hlive hphase] at hgoes
    exact hgoes
  | @failed k stage hphase =>
    have hgoes := @Inv.uploadFrom s i r (r.failedCount + 1) (k + 1) hinv hr hlive
    rw [setUploading_true hinv hr hlive hphase] at hgoes
    exact hgoes
  | deaf _ haborted =>
    rw [hheld.aborted] at haborted
    cases haborted
  | retry hphase _ => exact hwait hphase

/-! ## A save that is stopped -/

/-- An aborted save with a file to go leaves when it checks its signal. -/
theorem uploadFrom_of_aborted {s₁ : Panel} {r₁ : Save} {k : Nat} (haborted : r₁.aborted = true)
    (hk : k < r₁.totalFiles) (h : s.Leaves i r ((s₁.setUploading r₁ false).leave i r₁)) :
    (s₁.uploadFrom i r₁ k).2 = [] ∧ s.Leaves i r (s₁.uploadFrom i r₁ k).1 := by
  unfold Panel.uploadFrom
  rw [if_pos hk, if_pos haborted]
  exact ⟨rfl, h⟩

/-- **A stopped save leaves at once, and nothing is seen of it.** -/
theorem Answers.of_halted (h : s.Answers i r out) (hhalted : r.Halted) :
    out.2 = [] ∧ s.Leaves i r out.1 := by
  unfold Save.Halted at hhalted
  cases h with
  | notCreated _ => exact ⟨rfl, leaves_leave rfl⟩
  | createdAlone hphase hfiles =>
    rw [hphase] at hhalted
    omega
  | created hphase hfiles =>
    rw [hphase] at hhalted
    exact uploadFrom_of_aborted hhalted.1 hfiles (leaves_uploaded rfl)
  | wait hphase hhears =>
    rw [hphase] at hhalted
    rw [hhalted.2.1] at hhears
    cases hhears
  | uploaded hphase hhears =>
    rw [hphase] at hhalted
    rw [hhalted.2.1] at hhears
    cases hhears
  | failed hphase =>
    rw [hphase] at hhalted
    refine uploadFrom_of_aborted hhalted.1 hhalted.2.2 (.of_setUploading ?_ (leaves_leave ?_))
    · rfl
    · rfl
  | deaf _ _ => exact ⟨rfl, (leaves_leave rfl).of_setUploading rfl⟩
  | retry hphase haborted =>
    rw [hphase] at hhalted
    rw [hhalted.1] at haborted
    cases haborted

/-! ## Stopping -/

/-- Marking a save that is not live changes nothing. -/
theorem stopped_of_not_live {q : Save} (h : ¬q.Live) :
    { q with stopped := q.stopped || q.phase ≠ .done } = q := by
  have hstopped : (q.stopped || q.phase ≠ .done) = q.stopped := by
    unfold Save.Live at h
    cases hq : q.stopped <;> simp_all
  rw [hstopped]

theorem stopAll_of_idle (hidle : s.Idle) : s.stopAll = s := by
  have hsaves : s.saves.map (fun r : Save => { r with stopped := r.stopped || r.phase ≠ SavePhase.done }) =
      s.saves := by
    refine List.ext_getElem? fun j => ?_
    rw [List.getElem?_map]
    cases hq : s.saves[j]? with
    | none => rfl
    | some q =>
      rw [Option.map_some]
      exact congrArg some (stopped_of_not_live (hidle j q hq))
  unfold stopAll
  rw [hsaves]

/-- Only the live save is marked. -/
theorem stopAll_saves (hinv : s.Inv) (hr : s.saves[i]? = some r) (hlive : r.Live) :
    s.stopAll.saves = s.saves.set i { r with stopped := true } := by
  obtain ⟨hlen, _⟩ := List.getElem?_eq_some_iff.mp hr
  refine List.ext_getElem? fun j => ?_
  show (s.saves.map fun r : Save => { r with stopped := r.stopped || r.phase ≠ SavePhase.done })[j]? = _
  rw [List.getElem?_map, List.getElem?_set]
  by_cases hij : i = j
  · subst hij
    rw [if_pos rfl, if_pos hlen, hr, Option.map_some]
    have hmark : (r.stopped || decide (r.phase ≠ .done)) = true := by
      rw [decide_eq_true hlive.1, Bool.or_true]
    rw [hmark]
  · rw [if_neg hij]
    cases hq : s.saves[j]? with
    | none => rfl
    | some q =>
      have hnot : ¬q.Live := fun h => hij ((hinv.held i r hr hlive).unique j q hq h).symm
      rw [Option.map_some]
      exact congrArg some (stopped_of_not_live hnot)

/-- What is left of the live save when it is stopped. -/
structure Halts (s : Panel) (i : Nat) (r : Save) (s' : Panel) : Prop where
  saves : ∃ r' : Save, r'.formKey = r.formKey ∧ r'.totalFiles = r.totalFiles ∧ r'.Halted ∧
    (r'.phase = .done ∨ r'.stopped = true ∧ r'.phase = r.phase) ∧ s'.saves = s.saves.set i r'
  formKey : s'.formKey = s.formKey
  ref : s'.sequentialAbortControllerRef = none

theorem Halts.inv (h : s.Halts i r s') (hinv : s.Inv) (hr : s.saves[i]? = some r) (hlive : r.Live) :
    s'.Inv ∧ s'.Idle := by
  obtain ⟨⟨r', hkey, hfiles, hhalted, hphase, hsaves⟩, hformKey, href⟩ := h
  have hget : ∀ (j : Nat) (q : Save), s'.saves[j]? = some q → (j = i ∧ q = r') ∨
      (j ≠ i ∧ s.saves[j]? = some q) := fun j q hq => List.getElem?_of_set (hsaves ▸ hq)
  have hidle : s'.Idle := by
    intro j q hq hq_live
    rcases hget j q hq with ⟨_, rfl⟩ | ⟨hne, hq⟩
    · rcases hphase with hdone | ⟨hstopped, _⟩
      · exact hq_live.1 hdone
      · rw [hq_live.2] at hstopped
        cases hstopped
    · exact hne ((hinv.held i r hr hlive).unique j q hq hq_live)
  refine ⟨⟨?_, ?_, ?_, fun j q hq hq_live => absurd hq_live (hidle j q hq), ?_⟩, hidle⟩
  · intro j q hq
    rcases hget j q hq with ⟨_, rfl⟩ | ⟨_, hq⟩
    · rw [hkey, hformKey]
      exact hinv.formKey_le i r hr
    · rw [hformKey]
      exact hinv.formKey_le j q hq
  · intro j q hq k stage hk
    rcases hget j q hq with ⟨_, rfl⟩ | ⟨_, hq⟩
    · rcases hphase with hdone | ⟨_, hsame⟩
      · rw [hdone] at hk
        cases hk
      · rw [hfiles]
        exact hinv.file_lt i r hr k stage (hsame.symm.trans hk)
    · exact hinv.file_lt j q hq k stage hk
  · intro j q hq hstopped
    rcases hget j q hq with ⟨_, rfl⟩ | ⟨_, hq⟩
    · exact hhalted
    · exact hinv.halted j q hq hstopped
  · intro j hj
    rw [href] at hj
    cases hj

/-- There is something to upload for a save that can be stopped. -/
theorem totalFiles_pos (hinv : s.Inv) (hr : s.saves[i]? = some r)
    (hok : r.stoppable = true ∨ r.awaitsItem = true) : 0 < r.totalFiles := by
  rcases hok with hok | hok
  · unfold Save.stoppable at hok
    split at hok
    · next k stage hphase => exact Nat.zero_lt_of_lt (hinv.file_lt i r hr k stage hphase)
    · cases hok
  · unfold Save.awaitsItem at hok
    simpa using (Bool.and_eq_true_iff.mp hok).2

theorem abort_eq (hr : s.saves[i]? = some r) : s.abort i = s.setSave i { r with aborted := true } := by
  unfold abort
  rw [hr]

theorem reject_of_hears {k : Nat} {stage : UploadStage} (hr : s.saves[i]? = some r)
    (hphase : r.phase = .uploading k stage) (hhears : stage.hears = true) :
    s.reject i = (s.setUploading r false).leave i r := by
  unfold reject
  rw [hr]
  dsimp only
  rw [hphase]
  dsimp only
  rw [if_pos hhears]

theorem reject_of_deaf (hr : s.saves[i]? = some r)
    (hdeaf : ∀ k stage, r.phase = .uploading k stage → stage.hears = false) : s.reject i = s := by
  unfold reject
  rw [hr]
  dsimp only
  split
  · next k stage hphase => rw [if_neg (by rw [hdeaf k stage hphase]; exact Bool.false_ne_true)]
  · rfl

/-- **A live save that can be stopped is stopped.** -/
theorem halts_of_live (hinv : s.Inv) (hr : s.saves[i]? = some r) (hlive : r.Live)
    (hok : r.stoppable = true ∨ r.awaitsItem = true) :
    s.Halts i r s.stopAll.abortSequentialUpload := by
  obtain ⟨hlen, _⟩ := List.getElem?_eq_some_iff.mp hr
  have hfiles := totalFiles_pos hinv hr hok
  have href : s.stopAll.sequentialAbortControllerRef = some i := (hinv.held i r hr hlive).ref hfiles
  have hstop := stopAll_saves hinv hr hlive
  have hget : s.stopAll.saves[i]? = some { r with stopped := true } := by
    rw [hstop, List.getElem?_set_self hlen]
  -- what `abort` leaves, before the rejection
  have habort : s.stopAll.abort i = s.stopAll.setSave i { r with stopped := true, aborted := true } :=
    abort_eq hget
  obtain ⟨t, ht, hsaves, hkey, htref⟩ : ∃ t : Panel, s.stopAll.abortSequentialUpload = t.reject i ∧
      t.saves = s.saves.set i { r with stopped := true, aborted := true } ∧ t.formKey = s.formKey ∧
      t.sequentialAbortControllerRef = none := by
    unfold abortSequentialUpload
    rw [href]
    dsimp only
    rw [habort]
    refine ⟨_, rfl, ?_, rfl, rfl⟩
    show s.stopAll.saves.set i _ = _
    rw [hstop, List.set_set]
  have htget : t.saves[i]? = some { r with stopped := true, aborted := true } := by
    rw [hsaves, List.getElem?_set_self hlen]
  rw [ht]
  by_cases hhears : ∃ k stage, r.phase = .uploading k stage ∧ stage.hears = true
  · obtain ⟨k, stage, hphase, hhears⟩ := hhears
    rw [reject_of_hears htget hphase hhears]
    refine ⟨⟨{ r with stopped := true, aborted := true, phase := .done }, rfl, rfl, trivial, .inl rfl, ?_⟩,
      ?_, ?_⟩
    · simp [hsaves]
    · simp [hkey]
    · unfold leave setSave
      dsimp only
      split <;> simp [htref]
  · have hdeaf : ∀ k stage, r.phase = .uploading k stage → stage.hears = false := by
      intro k stage hphase
      cases h : stage.hears with
      | false => rfl
      | true => exact absurd ⟨k, stage, hphase, h⟩ hhears
    rw [reject_of_deaf htget hdeaf]
    refine ⟨⟨{ r with stopped := true, aborted := true }, rfl, rfl, ?_, .inr ⟨rfl, rfl⟩, hsaves⟩, hkey,
      htref⟩
    unfold Save.Halted
    dsimp only
    split
    · exact ⟨rfl, hfiles⟩
    · next k stage hphase =>
      have hstage := hdeaf k stage hphase
      refine ⟨rfl, hstage, ?_⟩
      unfold Save.stoppable Save.awaitsItem at hok
      simpa [hphase, hstage] using hok
    · trivial

/-- The saves that the user may stop. -/
def Stoppable (s : Panel) : Prop :=
  ∀ r ∈ s.saves, r.phase ≠ .done → r.aborted = false → r.stoppable = true ∨ r.awaitsItem = true

/-- Whatever is in progress is stopped. -/
theorem Inv.stop (hinv : s.Inv) (hok : s.Stoppable) :
    s.stopAll.abortSequentialUpload.Inv ∧ s.stopAll.abortSequentialUpload.Idle := by
  by_cases hlive : ∃ (i : Nat) (r : Save), s.saves[i]? = some r ∧ r.Live
  · obtain ⟨i, r, hr, hlive⟩ := hlive
    have haborted := (hinv.held i r hr hlive).aborted
    exact (halts_of_live hinv hr hlive (hok r (List.mem_of_getElem? hr) hlive.1 haborted)).inv hinv hr hlive
  · have hidle : s.Idle := fun i r hr h => hlive ⟨i, r, hr, h⟩
    have habort : s.abortSequentialUpload = s := by
      unfold abortSequentialUpload
      rw [hinv.ref_eq_none hidle]
    rw [stopAll_of_idle hidle, habort]
    exact ⟨hinv, hidle⟩

/-- Closing the panel with nothing live in it. -/
theorem Inv.closePanel (hinv : s.Inv) (hidle : s.Idle) : s.closePanel.Inv :=
  hinv.of_idle rfl Nat.le.refl hidle (hinv.ref_eq_none hidle)

theorem Inv.handleDiscard (hinv : s.Inv) (hok : s.Stoppable) : s.handleDiscard.Inv := by
  obtain ⟨hstopped, hidle⟩ := hinv.stop hok
  exact (hstopped.closePanel hidle).same ⟨rfl, rfl, id, rfl, rfl⟩

theorem Inv.handleCloseAttempt (hinv : s.Inv) (hheeds : s.Heeds .close) : s.handleCloseAttempt.Inv := by
  unfold Panel.handleCloseAttempt
  split
  · next hflag =>
    have hok : s.Stoppable := fun r hr hphase haborted => .inl (hheeds (.inl hflag) r hr hphase haborted)
    obtain ⟨hstopped, hidle⟩ := hinv.stop hok
    exact hstopped.closePanel hidle
  · next hflag =>
    split
    · exact hinv.same ⟨rfl, rfl, id, rfl, rfl⟩
    · next hdirty =>
      -- a live save would be uploading, and the flag up
      have hidle : s.Idle := by
        intro i r hr hlive
        have hheld := hinv.held i r hr hlive
        have hstoppable := hheeds (.inr (Bool.eq_false_iff.mpr hdirty)) r (List.mem_of_getElem? hr)
          hlive.1 hheld.aborted
        unfold Save.stoppable at hstoppable
        split at hstoppable
        · next k stage hphase => exact hflag (hheld.flag k stage hphase)
        · cases hstoppable
      rw [stopAll_of_idle hidle]
      exact hinv.closePanel hidle

/-! ## Runs -/

/-- The button is disabled while a save is live. -/
theorem Inv.idle_of_enabled (hinv : s.Inv) (hcreate : s.createIsPending = false)
    (hflag : s.isSequentialUploading = false) : s.Idle := by
  intro i r hr hlive
  have hheld := hinv.held i r hr hlive
  cases hphase : r.phase with
  | creating =>
    have hpending : s.createIsPending = true :=
      List.any_eq_true.mpr ⟨r, List.mem_of_getElem? hr, by simp [hheld.mounted, hphase]⟩
    rw [hcreate] at hpending
    cases hpending
  | uploading k stage =>
    have hup := hheld.flag k stage hphase
    rw [hflag] at hup
    cases hup
  | done => exact hlive.1 hphase

/-- A save starts. -/
theorem Inv.handleAddModeSubmit {a : AfterSubmit} (hinv : s.Inv) (hopen : s.isOpen = true)
    (hcreate : s.createIsPending = false) (hflag : s.isSequentialUploading = false)
    (hheeds : s.Heeds (.save a)) : (s.handleAddModeSubmit a).Inv := by
  -- the button is enabled, so no save is live and nothing is to be aborted
  have hidle := hinv.idle_of_enabled hcreate hflag
  unfold Panel.handleAddModeSubmit
  rw [hinv.ref_eq_none hidle]
  dsimp only
  have hget : ∀ (j : Nat) (q : Save),
      (s.saves ++ [⟨s.formKey, s.pendingFiles, a, .creating, false, 0, false⟩])[j]? = some q →
      s.saves[j]? = some q ∨
        (j = s.saves.length ∧ q = ⟨s.formKey, s.pendingFiles, a, .creating, false, 0, false⟩) := by
    intro j q hq
    rw [List.getElem?_append] at hq
    split at hq
    · exact .inl hq
    · next hle =>
      rw [List.getElem?_singleton] at hq
      split at hq
      · next hzero => exact .inr ⟨by omega, (Option.some.inj hq).symm⟩
      · cases hq
  refine ⟨?_, ?_, ?_, ?_, ?_⟩
  · intro j q hq
    rcases hget j q hq with hq | ⟨_, rfl⟩
    · exact hinv.formKey_le j q hq
    · exact Nat.le.refl
  · intro j q hq k stage hk
    rcases hget j q hq with hq | ⟨_, rfl⟩
    · exact hinv.file_lt j q hq k stage hk
    · cases hk
  · intro j q hq hstopped
    rcases hget j q hq with hq | ⟨_, rfl⟩
    · exact hinv.halted j q hq hstopped
    · cases hstopped
  · intro j q hq hlive
    rcases hget j q hq with hq | ⟨rfl, rfl⟩
    · exact absurd hlive (hidle j q hq)
    refine ⟨rfl, hopen, rfl, fun _ => rfl, fun k stage hk => (by cases hk), ?_, ?_⟩
    · intro j' q' hq' hlive'
      rcases hget j' q' hq' with hq' | ⟨h, _⟩
      · exact absurd hlive' (hidle j' q' hq')
      · exact h
    · intro hfiles j' q' hq' hne hmounted
      rcases hget j' q' hq' with hq' | ⟨h, _⟩
      · -- with files to send, the saves of this form have all ended
        rcases hheeds with hnone | hdone
        · exact absurd hnone (Nat.pos_iff_ne_zero.mp hfiles)
        · exact hdone q' (List.mem_of_getElem? hq') hmounted
      · exact absurd h hne
  · intro j hj
    cases hj
    refine ⟨_, List.getElem?_concat_length, ?_, rfl⟩
    intro hdone
    cases hdone

theorem Answers.phase_ne_done (h : s.Answers i r out) : r.phase ≠ .done := by
  intro hdone
  cases h <;> simp_all

/-- **Every step that heeds the condition keeps the invariant.** -/
theorem Inv.step {e : PanelEvent} {fx : List Effect} (hinv : s.Inv) (hheeds : s.Heeds e)
    (h : s.step e = some (s', fx)) : s'.Inv := by
  rcases step_cases h with ⟨_, hacts⟩ | ⟨i, r, hr, hanswers⟩
  · cases hacts with
    | edit => exact hinv.same ⟨rfl, rfl, id, rfl, rfl⟩
    | choose => exact hinv.same ⟨rfl, rfl, id, rfl, rfl⟩
    | save hopen hcreate hflag => exact hinv.handleAddModeSubmit hopen hcreate hflag hheeds
    | close => exact hinv.handleCloseAttempt hheeds
    | discard => exact hinv.handleDiscard hheeds
    | discardCancel => exact hinv.same ⟨rfl, rfl, id, rfl, rfl⟩
    | addItem => exact hinv.same ⟨rfl, rfl, fun _ => rfl, rfl, rfl⟩
    | openItem hclosed =>
      have hidle : s.Idle := by
        intro i r hr hlive
        have hopen := (hinv.held i r hr hlive).isOpen
        rw [hclosed] at hopen
        cases hopen
      exact hinv.of_idle rfl (Nat.le_succ _) hidle rfl
  · cases hstopped : r.stopped with
    | false => exact hinv.answers hr ⟨hanswers.phase_ne_done, hstopped⟩ hanswers
    | true =>
      exact hinv.leaves hr hanswers.phase_ne_done (hanswers.of_halted (hinv.halted i r hr hstopped)).2

theorem Reachable.inv (h : Reachable Heeds s) : s.Inv := by
  induction h with
  | init => exact .init
  | step _ hheeds hstep ih => exact ih.step hheeds hstep

theorem uploadFrom_effect {k : Nat} {f : Effect} (hf : f ∈ (s.uploadFrom i r k).2) : f.save = i := by
  unfold uploadFrom succeed at hf
  split at hf
  · split at hf
    · cases hf
    · rw [List.mem_singleton.mp hf]
      rfl
  · dsimp only at hf
    split at hf
    · cases hf
    · rw [List.mem_singleton.mp hf]
      rfl

/-- What is seen in a response is of the save that gets it. -/
theorem Answers.effect {f : Effect} (h : s.Answers i r out) (hf : f ∈ out.2) : f.save = i := by
  cases h with
  | notCreated _ => cases hf
  | createdAlone _ _ =>
    rw [List.mem_singleton.mp hf]
    rfl
  | created _ _ => exact uploadFrom_effect hf
  | wait _ _ => cases hf
  | uploaded _ _ => exact uploadFrom_effect hf
  | failed _ => exact uploadFrom_effect hf
  | deaf _ _ => cases hf
  | retry _ _ =>
    rw [List.mem_singleton.mp hf]
    rfl

theorem abort_get {j : Nat} {q' : Save} (h : (s.abort i).saves[j]? = some q') :
    ∃ q, s.saves[j]? = some q ∧ (q.aborted = true ∨ j = i → q'.aborted = true) := by
  cases hr : s.saves[i]? with
  | none =>
    have habort : s.abort i = s := by
      unfold abort
      rw [hr]
    rw [habort] at h
    refine ⟨q', h, fun hor => hor.elim id ?_⟩
    rintro rfl
    cases hr.symm.trans h
  | some r =>
    rw [abort_eq hr] at h
    rcases List.getElem?_of_set h with ⟨rfl, rfl⟩ | ⟨hne, h⟩
    · exact ⟨r, hr, fun _ => rfl⟩
    · exact ⟨q', h, fun hor => hor.resolve_right hne⟩

theorem reject_get {j : Nat} {q' : Save} (h : (s.reject i).saves[j]? = some q') :
    ∃ q, s.saves[j]? = some q ∧ q'.aborted = q.aborted := by
  unfold reject at h
  cases hr : s.saves[i]? with
  | none =>
    rw [hr] at h
    exact ⟨q', h, rfl⟩
  | some r =>
    rw [hr] at h
    dsimp only at h
    split at h
    · split at h
      · rw [leave_saves, setUploading_saves] at h
        rcases List.getElem?_of_set h with ⟨rfl, rfl⟩ | ⟨_, h⟩
        · exact ⟨r, hr, rfl⟩
        · exact ⟨q', h, rfl⟩
      · exact ⟨q', h, rfl⟩
    · exact ⟨q', h, rfl⟩

/-- The save in the ref is aborted, and none that was aborted is no more. -/
theorem abortSequentialUpload_get {j : Nat} {q' : Save}
    (h : s.abortSequentialUpload.saves[j]? = some q') :
    ∃ q, s.saves[j]? = some q ∧
      (q.aborted = true ∨ s.sequentialAbortControllerRef = some j → q'.aborted = true) := by
  unfold abortSequentialUpload at h
  cases href : s.sequentialAbortControllerRef with
  | none =>
    rw [href] at h
    exact ⟨q', h, fun hor => hor.elim id fun hno => (by cases hno)⟩
  | some i =>
    rw [href] at h
    obtain ⟨q₁, h₁, haborted⟩ := reject_get h
    obtain ⟨q, hq, hor⟩ := abort_get h₁
    refine ⟨q, hq, fun hcases => haborted.trans (hor (hcases.imp_right fun hi => ?_))⟩
    exact (Option.some.inj hi).symm

/-- **Closing the panel stops the saves**, in every run whose steps heed the condition. -/
theorem abortStops (h : Reachable Heeds s) : s.AbortStops where
  silent e s' fx hstep f hf r hr := by
    rcases step_cases hstep with ⟨hnone, _⟩ | ⟨i, r', hr', hanswers⟩
    · have hnone : fx = [] := hnone
      rw [hnone] at hf
      cases hf
    · have hi := hanswers.effect hf
      rw [hi] at hr
      cases hr'.symm.trans hr
      cases hstopped : r.stopped with
      | false => rfl
      | true =>
        have hnone : fx = [] := (hanswers.of_halted (h.inv.halted i r hr hstopped)).1
        rw [hnone] at hf
        cases hf
  reached i r k stage hr hphase r' hr' := by
    obtain ⟨q, hq, hreached⟩ := abortSequentialUpload_get hr'
    cases hr.symm.trans hq
    refine hreached ?_
    cases hstopped : r.stopped with
    | true =>
      have hhalted := h.inv.halted i r hr hstopped
      unfold Save.Halted at hhalted
      rw [hphase] at hhalted
      exact .inl hhalted.1
    | false =>
      have hne : r.phase ≠ .done := by
        intro hdone
        cases hphase.symm.trans hdone
      have hfiles := Nat.zero_lt_of_lt (h.inv.file_lt i r hr k stage hphase)
      exact .inr ((h.inv.held i r hr ⟨hne, hstopped⟩).ref hfiles)

end Panel

/-! ## Two runs -/

namespace Panel

instance (s : Panel) : (e : PanelEvent) → Decidable (s.Heeds e)
  | .save _ => inferInstanceAs (Decidable (_ ∨ _))
  | .close => inferInstanceAs (Decidable (_ → _))
  | .discard => inferInstanceAs (Decidable (∀ _ ∈ _, _))
  | .edit _ | .choose _ | .discardCancel | .addItem | .openItem _ | .created _ _ | .answer _ _
  | .refreshed _ _ | .errorRead _ => inferInstanceAs (Decidable True)

/-- The panel after a run, if each step can happen and meets the condition. -/
def run (C : Panel → PanelEvent → Bool) : Panel → List PanelEvent → Option Panel :=
  Replay.run (fun s e => (s.step e).map Prod.fst) C

theorem reachable_of_run {C : Panel → PanelEvent → Prop} {c : Panel → PanelEvent → Bool}
    (hc : ∀ s e, c s e = true → C s e) {es : List PanelEvent} {s s' : Panel}
    (hs : Reachable C s) (h : run c s es = some s') : Reachable C s' := by
  refine Replay.run_rule (I := Reachable C) (fun {s s' e} hs he hstep => ?_) h hs
  obtain ⟨out, hout, rfl⟩ := Option.map_eq_some_iff.mp hstep
  exact hs.step (hc s e he) hout

/-- A save with two files is stopped at its first upload, and another one started. -/
def Sample.stopped : List PanelEvent :=
  [.addItem, .edit true, .choose 2, .save .saveSuccess, .created 0 true, .close, .addItem, .edit true,
    .choose 1, .save .saveAndContinue, .created 1 true]

theorem abortStops_of_stopped : ∃ s, Reachable Heeds s ∧ s.saves.map Save.stopped = [true, false] ∧
    s.AbortStops := by
  have hrun : (run (fun s e => s.Heeds e) init Sample.stopped).any
      (fun s => s.saves.map Save.stopped = [true, false]) = true := by decide
  obtain ⟨s, hs, hstopped⟩ := (Option.any_eq_true _ _).mp hrun
  have hreach : Reachable Heeds s := reachable_of_run (fun _ _ => of_decide_eq_true) .init hs
  exact ⟨s, hreach, of_decide_eq_true hstopped, abortStops hreach⟩

/-- The changes are discarded while a save without files awaits its item. -/
def Sample.discarded : List PanelEvent :=
  [.addItem, .edit true, .save .saveAndContinue, .close, .discard]

/-- The save opens the panel again when the item is created. -/
theorem not_abortStops_of_discarded : ∃ s s', Reachable (fun _ _ => True) s ∧ s.isOpen = false ∧
    s.step (.created 0 true) = some (s', [.afterSubmit 0]) ∧ s'.isOpen = true ∧ ¬s.AbortStops := by
  have hrun : (run (fun _ _ => true) init Sample.discarded).any (fun s => s.isOpen = false ∧
      s.saves.map Save.stopped = [true] ∧ (s.step (.created 0 true)).any (fun out =>
        out.1.isOpen = true ∧ out.2 = [.afterSubmit 0])) = true := by decide
  obtain ⟨s, hs, hprops⟩ := (Option.any_eq_true _ _).mp hrun
  obtain ⟨hclosed, hstopped, hstep⟩ := of_decide_eq_true hprops
  obtain ⟨⟨s', fx⟩, hstep, hout⟩ := (Option.any_eq_true _ _).mp hstep
  obtain ⟨hopen, hfx⟩ := of_decide_eq_true hout
  cases hfx
  refine ⟨s, s', reachable_of_run (fun _ _ _ => trivial) .init hs, hclosed, hstep, hopen, fun h => ?_⟩
  obtain ⟨r, hr⟩ : ∃ r, s.saves[0]? = some r ∧ r.stopped = true := by
    cases hsaves : s.saves with
    | nil =>
      rw [hsaves] at hstopped
      cases hstopped
    | cons r rest =>
      rw [hsaves] at hstopped
      exact ⟨r, rfl, (List.cons.inj hstopped).1⟩
  have hsilent := h.silent _ _ _ hstep (.afterSubmit 0) List.mem_cons_self r hr.1
  rw [hr.2] at hsilent
  cases hsilent

end Panel

end Frontend

end ExpenseSaas
