import Mathlib.Data.Nat.Notation

/-!
# The panel for items

`frontend/src/pages/reports/ItemSlidePanel.tsx` in its add mode, inside
`ReportDetailPage.tsx`: the saves of `handleAddModeSubmit`, the `AbortController` that the
panel keeps in a ref, and what the user does. A save goes on, turn by turn, while the
panel is closed, opened again or mounted anew; a panel mounted anew (another `formKey`) has
a ref and a state of its own, and what an old save sets there is set on nothing.

The setters of React take effect within the turn, and so does the effect that runs when the
panel is closed. An aborted `fetch` rejects before anything else happens, that is at the end
of the turn that aborts it. An upload is a call of `apiClient`: it may be answered with a
401, refresh the access token and fetch again; neither the refresh nor the reading of an
error's body hears of the signal (the former is not given it, the latter catches whatever
it throws).
-/

namespace ExpenseSaas

namespace Frontend

/-- `PanelMode`. -/
inductive PanelMode where
  | add
  | edit
  | view
  deriving DecidableEq, Repr

/-- The `afterSubmit` of a save: `onSaveSuccess`, or `onSaveAndContinue`. -/
inductive AfterSubmit where
  | saveSuccess
  | saveAndContinue
  deriving DecidableEq, Repr

/-- Where a call of `apiClient` for an upload is. -/
inductive UploadStage where
  | fetching
  /-- It awaits `refreshAccessToken`. -/
  | refreshing
  | retrying
  /-- It awaits the body of an error, in `handleErrorResponse`. -/
  | reading
  deriving DecidableEq, Repr

/-- It awaits something that the signal aborts. -/
def UploadStage.hears : UploadStage → Bool
  | .fetching => true
  | .retrying => true
  | _ => false

/-- Where a save is. -/
inductive SavePhase where
  /-- It awaits `createItemMutation.mutateAsync`. -/
  | creating
  /-- It awaits the upload of a file. -/
  | uploading (i : Nat) (stage : UploadStage)
  | done
  deriving DecidableEq, Repr

/-- A run of `handleAddModeSubmit`. -/
structure Save where
  /-- The `formKey` of the panel it runs in. -/
  formKey : Nat
  /-- `pendingFiles.length`, when it was called. -/
  totalFiles : Nat
  afterSubmit : AfterSubmit
  phase : SavePhase
  /-- `signal.aborted`, of its own controller. -/
  aborted : Bool
  failedCount : Nat
  /-- It was in progress when the user closed the panel or discarded the changes. This is for the
  record only. -/
  stopped : Bool
  deriving DecidableEq, Repr

/-- The panel that is mounted, and all saves so far. -/
structure Panel where
  formKey : Nat
  isOpen : Bool
  mode : PanelMode
  isFormDirty : Bool
  /-- `pendingFiles.length`. -/
  pendingFiles : Nat
  isDiscardDialogOpen : Bool
  isSequentialUploading : Bool
  /-- `sequentialAbortControllerRef`: the save whose controller it holds. -/
  sequentialAbortControllerRef : Option Nat
  saves : List Save
  deriving DecidableEq, Repr

/-- What a save does that can be seen from outside. -/
inductive Effect where
  /-- The `i`-th save sends an upload. -/
  | upload (i : Nat)
  /-- It calls its `afterSubmit`. -/
  | afterSubmit (i : Nat)
  deriving DecidableEq, Repr

/-- The save an effect is of. -/
def Effect.save : Effect → Nat
  | .upload i => i
  | .afterSubmit i => i

/-- How a `fetch` of an upload ends. -/
inductive UploadAnswer where
  | ok
  | unauthorized
  | refused
  /-- Without a response, or with a body that cannot be read. -/
  | failed
  deriving DecidableEq, Repr

/-- What happens next. -/
inductive PanelEvent where
  /-- The form reports whether it is dirty. -/
  | edit (dirty : Bool)
  /-- The list of pending files changes. -/
  | choose (files : Nat)
  /-- `handleSubmit` or `handleSaveAndContinue`. -/
  | save (afterSubmit : AfterSubmit)
  /-- `handleCloseAttempt`. -/
  | close
  | discard
  | discardCancel
  /-- `handleAddItem` of the page. -/
  | addItem
  /-- `handleItemClick` or `handleEditItem`. -/
  | openItem (editing : Bool)
  /-- The item is created, or not. -/
  | created (i : Nat) (ok : Bool)
  /-- The fetch of an upload ends. -/
  | answer (i : Nat) (a : UploadAnswer)
  /-- The refresh an upload awaits ends. -/
  | refreshed (i : Nat) (ok : Bool)
  /-- The body of an error has arrived, or cannot be read. -/
  | errorRead (i : Nat)
  deriving DecidableEq, Repr

namespace Panel

/-- The panel before it was ever opened. -/
def init : Panel := ⟨0, false, .add, false, 0, false, false, none, []⟩

/-- `isDirty`. -/
def isDirty (s : Panel) : Bool :=
  if s.mode = .add then s.isFormDirty || 0 < s.pendingFiles else s.isFormDirty

/-- `createItemMutation.isPending`. -/
def createIsPending (s : Panel) : Bool :=
  s.saves.any fun r => r.formKey = s.formKey && r.phase = .creating

/-- `isSaveDisabled`. -/
def isSaveDisabled (s : Panel) : Bool := s.createIsPending || s.isSequentialUploading

def setSave (s : Panel) (i : Nat) (r : Save) : Panel := { s with saves := s.saves.set i r }

/-- `setIsSequentialUploading`, by a save. -/
def setUploading (s : Panel) (r : Save) (b : Bool) : Panel :=
  if r.formKey = s.formKey then { s with isSequentialUploading := b } else s

/-- `resetDirtyState`. -/
def resetDirtyState (s : Panel) : Panel := { s with isFormDirty := false, pendingFiles := 0 }

/-- `setPanelState('closed')`, and the effect of the panel that follows. -/
def closePanel (s : Panel) : Panel := { s.resetDirtyState with isOpen := false }

/-- The panel mounted anew. -/
def remount (s : Panel) (mode : PanelMode) : Panel :=
  { s with
    formKey := s.formKey + 1, isOpen := true, mode := mode, isFormDirty := false, pendingFiles := 0
    isDiscardDialogOpen := false, isSequentialUploading := false
    sequentialAbortControllerRef := none }

/-- The `afterSubmit` of a save is called. -/
def submitted (s : Panel) : AfterSubmit → Panel
  | .saveSuccess => s.closePanel
  | .saveAndContinue => s.remount .add

/-- The `finally` of a save, and its end. -/
def leave (s : Panel) (i : Nat) (r : Save) : Panel :=
  let s := s.setSave i { r with phase := .done }
  if r.formKey = s.formKey then { s with sequentialAbortControllerRef := none } else s

/-- The end of a save that has succeeded: what it resets, its `afterSubmit` and its `finally`. -/
def succeed (s : Panel) (i : Nat) (r : Save) : Panel × List Effect :=
  let s := s.leave i r
  let s := if r.formKey = s.formKey then s.resetDirtyState else s
  (s.submitted r.afterSubmit, [.afterSubmit i])

/-- The loop over the files from the `k`-th on, up to the next `await`. -/
def uploadFrom (s : Panel) (i : Nat) (r : Save) (k : Nat) : Panel × List Effect :=
  if k < r.totalFiles then
    if r.aborted then ((s.setUploading r false).leave i r, [])
    else (s.setSave i { r with phase := .uploading k .fetching }, [.upload i])
  else
    let s := s.setUploading r false
    -- after a failure `afterSubmit` waits for an effect, which an unmounted panel does not run
    if 0 < r.failedCount && r.formKey ≠ s.formKey then (s.leave i r, [])
    else s.succeed i r

/-- An upload that fails is counted. -/
def uploadFailed (s : Panel) (i : Nat) (r : Save) (k : Nat) : Panel × List Effect :=
  s.uploadFrom i { r with failedCount := r.failedCount + 1 } (k + 1)

/-- The `AbortError` of a save whose fetch is aborted. -/
def reject (s : Panel) (i : Nat) : Panel :=
  match s.saves[i]? with
  | none => s
  | some r =>
    match r.phase with
    | .uploading _ stage => if stage.hears then (s.setUploading r false).leave i r else s
    | _ => s

/-- `abort`, of the controller of a save. -/
def abort (s : Panel) (i : Nat) : Panel :=
  match s.saves[i]? with
  | none => s
  | some r => s.setSave i { r with aborted := true }

/-- `abortSequentialUpload`, and the rejection that it causes. -/
def abortSequentialUpload (s : Panel) : Panel :=
  match s.sequentialAbortControllerRef with
  | none => s
  | some i =>
    ({ s.abort i with sequentialAbortControllerRef := none, isSequentialUploading := false }).reject i

/-- `handleAddModeSubmit`, up to its `await`; the controller that was in the ref is aborted, and
what that rejects goes on afterwards. -/
def handleAddModeSubmit (s : Panel) (afterSubmit : AfterSubmit) : Panel :=
  let r : Save := ⟨s.formKey, s.pendingFiles, afterSubmit, .creating, false, 0, false⟩
  match s.sequentialAbortControllerRef with
  | none => { s with saves := s.saves ++ [r], sequentialAbortControllerRef := some s.saves.length }
  | some i =>
    let s := s.abort i
    ({ s with saves := s.saves ++ [r], sequentialAbortControllerRef := some s.saves.length }).reject i

/-- The saves in progress are marked. -/
def stopAll (s : Panel) : Panel :=
  { s with saves := s.saves.map fun r => { r with stopped := r.stopped || r.phase ≠ .done } }

/-- `handleDiscard`. -/
def handleDiscard (s : Panel) : Panel :=
  { s.stopAll.abortSequentialUpload.closePanel with isDiscardDialogOpen := false }

/-- `handleCloseAttempt`. -/
def handleCloseAttempt (s : Panel) : Panel :=
  if s.isSequentialUploading then s.stopAll.abortSequentialUpload.closePanel
  else if s.isDirty then { s with isDiscardDialogOpen := true }
  else s.stopAll.closePanel

/-- What happens, and what is done; `none` if it cannot happen. The form and the buttons of the
panel are there while it is open, and behind the dialog out of reach. -/
def step (s : Panel) : PanelEvent → Option (Panel × List Effect)
  | .edit dirty => if s.isOpen then some ({ s with isFormDirty := dirty }, []) else none
  | .choose files =>
    if s.isOpen ∧ s.mode = .add then some ({ s with pendingFiles := files }, []) else none
  | .save afterSubmit =>
    if s.isOpen ∧ s.mode = .add ∧ !s.isDiscardDialogOpen ∧ !s.isSaveDisabled then
      some (s.handleAddModeSubmit afterSubmit, [])
    else none
  | .close => if s.isOpen ∧ !s.isDiscardDialogOpen then some (s.handleCloseAttempt, []) else none
  | .discard => if s.isDiscardDialogOpen then some (s.handleDiscard, []) else none
  | .discardCancel =>
    if s.isDiscardDialogOpen then some ({ s with isDiscardDialogOpen := false }, []) else none
  | .addItem =>
    if s.isOpen ∨ s.isDiscardDialogOpen then none
    else some ({ s with isOpen := true, mode := .add }, [])
  | .openItem editing =>
    if s.isOpen ∨ s.isDiscardDialogOpen then none
    else some (s.remount (if editing then .edit else .view), [])
  | .created i ok => do
    let r ← s.saves[i]?
    match r.phase with
    | .creating =>
      if !ok then some (s.leave i r, [])
      else if r.totalFiles = 0 then some (s.succeed i r)
      else some ((s.setUploading r true).uploadFrom i r 0)
    | _ => none
  | .answer i a => do
    let r ← s.saves[i]?
    match r.phase, a with
    | .uploading k .fetching, .unauthorized =>
      some (s.setSave i { r with phase := .uploading k .refreshing }, [])
    | .uploading k stage, a =>
      if stage.hears then
        match a with
        | .ok => some (s.uploadFrom i r (k + 1))
        | .failed => some (s.uploadFailed i r k)
        | _ => some (s.setSave i { r with phase := .uploading k .reading }, [])
      else none
    | _, _ => none
  | .refreshed i ok => do
    let r ← s.saves[i]?
    match r.phase with
    | .uploading k .refreshing =>
      if !ok then some (s.uploadFailed i r k)
      -- a fetch with an aborted signal sends nothing
      else if r.aborted then some ((s.setUploading r false).leave i r, [])
      else some (s.setSave i { r with phase := .uploading k .retrying }, [.upload i])
    | _ => none
  | .errorRead i => do
    let r ← s.saves[i]?
    match r.phase with
    | .uploading k .reading => some (s.uploadFailed i r k)
    | _ => none

end Panel

end Frontend

end ExpenseSaas
