import Mathlib.Data.List.TakeWhile

/-!
# The list of pending approvals

`frontend/src/pages/workflow/ApprovalListPage.tsx`: the parameters of the URL, the text in
the filter, the text that has been debounced and the timer, with the history of the browser
around them. What a handler or a timer sets is rendered, and the effects whose dependencies
changed have run, before anything else happens. A navigation is rendered by the router as a
transition, that is with what was set along with it or after it; the effect then sees the
parameters before it. A run ends when the user leaves the list. Numbers are exact.

What page the user has asked for is kept beside the page (`askedPage`): the one of the
address that was opened, reloaded or gone back to, the one chosen, or the first after a
change of the filter, of the number per page, or a reset. The page requests it, and the
three texts are equal when no timer is pending, as long as the page is opened at the first
page only and no step in the history meets another applicant (`urlIsState`).
-/

namespace ExpenseSaas

namespace Frontend

/-! ## Numbers in the URL -/

/-- White space and line ends, as `parseInt` skips them. -/
def isStrWhiteSpace (c : Char) : Bool :=
  (9 ≤ c.toNat ∧ c.toNat ≤ 13) ∨ (0x2000 ≤ c.toNat ∧ c.toNat ≤ 0x200A) ∨
    c.toNat ∈ [0x20, 0xA0, 0x1680, 0x2028, 0x2029, 0x202F, 0x205F, 0x3000, 0xFEFF]

/-- The number that a text begins with. -/
def leadingNumber (s : List Char) : Option Nat :=
  match s.takeWhile Char.isDigit with
  | [] => none
  | ds => some (Nat.ofDigitChars 10 ds 0)

/-- `parseInt(s, 10)`; `none` is `NaN`. -/
def parseInt (s : String) : Option Int :=
  match s.toList.dropWhile isStrWhiteSpace with
  | '-' :: cs => (leadingNumber cs).map Int.negOfNat
  | '+' :: cs => (leadingNumber cs).map Int.ofNat
  | cs => (leadingNumber cs).map Int.ofNat

theorem leadingNumber_digits {ds : List Char} (hne : ds ≠ []) (h : ∀ c ∈ ds, c.isDigit = true) :
    leadingNumber ds = some (Nat.ofDigitChars 10 ds 0) := by
  unfold leadingNumber
  rw [List.takeWhile_eq_self_iff.mpr h]
  cases ds with
  | nil => exact absurd rfl hne
  | cons d ds => rfl

theorem not_isStrWhiteSpace_of_isDigit {c : Char} (h : c.isDigit = true) :
    isStrWhiteSpace c = false := by
  have hdigit : 48 ≤ c.toNat ∧ c.toNat ≤ 57 := by
    rw [Char.isDigit_iff_toNat] at h
    exact h
  unfold isStrWhiteSpace
  rw [decide_eq_false_iff_not]
  intro hspace
  simp only [List.mem_cons, List.not_mem_nil, or_false] at hspace
  omega

/-- `String(n)` is read back. -/
theorem parseInt_repr (n : Nat) : parseInt n.repr = some (n : Int) := by
  have hdigits : ∀ c ∈ Nat.toDigits 10 n, c.isDigit = true := fun c hc =>
    Nat.isDigit_of_mem_toDigits (by decide) (by decide) hc
  have hnumber := leadingNumber_digits Nat.toDigits_ne_nil hdigits
  rw [Nat.ofDigitChars_ten_toDigits] at hnumber
  unfold parseInt
  rw [Nat.toList_repr]
  cases hds : Nat.toDigits 10 n with
  | nil => exact absurd hds Nat.toDigits_ne_nil
  | cons d ds =>
    rw [hds] at hdigits hnumber
    have hd : d.isDigit = true := hdigits d (List.mem_cons_self ..)
    rw [List.dropWhile_cons, not_isStrWhiteSpace_of_isDigit hd, if_neg Bool.false_ne_true]
    split
    next heq =>
      -- neither sign is a digit
      rw [List.cons.injEq] at heq
      rw [heq.1] at hd
      exact absurd hd (by decide)
    next heq =>
      rw [List.cons.injEq] at heq
      rw [heq.1] at hd
      exact absurd hd (by decide)
    next =>
      rw [hnumber]
      rfl

/-! ## The page -/

/-- The parameters of the URL that the page reads. -/
structure SearchParams where
  page : Option String
  perPage : Option String
  applicantName : Option String
  deriving DecidableEq, Repr

namespace SearchParams

/-- No parameters. -/
def empty : SearchParams := ⟨none, none, none⟩

/-- `applicantNameParam`. -/
def applicantNameParam (p : SearchParams) : String := p.applicantName.getD ""

/-- `page`. -/
def pageNumber (p : SearchParams) : Option Int := parseInt (p.page.getD "1")

/-- `per_page`. -/
def perPageNumber (p : SearchParams) : Int :=
  match p.perPage.bind parseInt with
  | some n => if 0 ≤ n then n else 20
  | none => 20

end SearchParams

/-- What `usePendingReports` is asked for. -/
structure PendingReportsQuery where
  page : Option Int
  perPage : Int
  applicantName : Option String
  deriving DecidableEq, Repr

/-- The page, with the entries of the history around it. -/
structure ApprovalList where
  past : List SearchParams
  searchParams : SearchParams
  future : List SearchParams
  applicantNameInput : String
  debouncedApplicantName : String
  /-- The pending timer, and the text it will set. -/
  timer : Option String
  /-- The page the user has asked for. This is for the record only. -/
  askedPage : Option Int
  deriving DecidableEq, Repr

/-- What happens next. -/
inductive ListEvent where
  /-- `handleApplicantNameChange`. -/
  | type (value : String)
  /-- The timer expires. -/
  | expire
  | changePage (newPage : Nat)
  | changePerPage (size : Nat)
  /-- `handleFilterReset`; the new address is rendered with the emptied filter, or after it. -/
  | reset (after : Bool)
  | back
  | forward
  | reload
  deriving DecidableEq, Repr

namespace ApprovalList

/-- The query of a render. -/
def query (s : ApprovalList) : PendingReportsQuery :=
  ⟨s.searchParams.pageNumber, s.searchParams.perPageNumber,
    if s.searchParams.applicantNameParam = "" then none else some s.searchParams.applicantNameParam⟩

/-- What the effect of the debounced text makes of the parameters. -/
def withApplicantName (p : SearchParams) (debounced : String) : SearchParams :=
  { p with page := some "1", applicantName := if debounced = "" then none else some debounced }

/-- The page is mounted, and both effects run. -/
def mount (past : List SearchParams) (p : SearchParams) (future : List SearchParams) : ApprovalList :=
  ⟨past, withApplicantName p p.applicantNameParam, future, p.applicantNameParam,
    p.applicantNameParam, some p.applicantNameParam, p.pageNumber⟩

/-- The page is opened at an address. -/
def openAt (p : SearchParams) : ApprovalList := mount [] p []

/-- `setSearchParams(next)`: a new entry. -/
def push (s : ApprovalList) (p : SearchParams) : ApprovalList :=
  { s with past := s.searchParams :: s.past, searchParams := p, future := [] }

/-- `setApplicantNameInput`, and the effect of the input if it changes. -/
def setInput (s : ApprovalList) (value : String) : ApprovalList :=
  if value = s.applicantNameInput then s
  else { s with applicantNameInput := value, timer := some value }

/-- `setDebouncedApplicantName`, and its effect if it changes, with the parameters it sees. -/
def setDebounced (s : ApprovalList) (value : String) (seen : SearchParams) : ApprovalList :=
  if value = s.debouncedApplicantName then s
  else
    { s with
      debouncedApplicantName := value, searchParams := withApplicantName seen value
      askedPage := some 1 }

/-- What happens; `none` if it cannot. -/
def step (s : ApprovalList) : ListEvent → Option ApprovalList
  | .type value => some (s.setInput value)
  | .expire => s.timer.map fun value => { s with timer := none }.setDebounced value s.searchParams
  | .changePage newPage =>
    some { s.push { s.searchParams with page := some newPage.repr } with askedPage := some newPage }
  | .changePerPage size =>
    some { s.push { s.searchParams with perPage := some size.repr, page := some "1" } with
      askedPage := some 1 }
  | .reset after =>
    some (({ (s.setInput "").push .empty with askedPage := some 1 }).setDebounced ""
      (if after then s.searchParams else .empty))
  | .back => match s.past with
    | [] => none
    | p :: past => some { s with
        past := past, searchParams := p, future := s.searchParams :: s.future
        askedPage := p.pageNumber }
  | .forward => match s.future with
    | [] => none
    | p :: future => some { s with
        past := s.searchParams :: s.past, searchParams := p, future := future
        askedPage := p.pageNumber }
  | .reload => some (mount s.past s.searchParams s.future)

/-- **The URL is the state**: the page asked for is the one requested, and unless a timer is pending
the three texts are equal. -/
structure UrlIsState (s : ApprovalList) : Prop where
  page : s.query.page = s.askedPage
  texts : s.timer = none → s.applicantNameInput = s.debouncedApplicantName ∧
    s.debouncedApplicantName = s.searchParams.applicantNameParam

/-- An entry of the history may be met: while no timer is pending, it has the applicant of the
filter. -/
def SameApplicant (s : ApprovalList) (p : SearchParams) : Prop :=
  s.timer = none → p.applicantNameParam = s.debouncedApplicantName

/-- **When a step does what the user asked for**: a reload does at the first page, a step in the
history at an entry with the applicant of the filter, and a timer that finds nothing to change if
the URL has that applicant too. -/
def Heeds (s : ApprovalList) : ListEvent → Prop
  | .expire => s.timer = some s.debouncedApplicantName →
      s.searchParams.applicantNameParam = s.debouncedApplicantName
  | .back => ∀ p ∈ s.past.head?, s.SameApplicant p
  | .forward => ∀ p ∈ s.future.head?, s.SameApplicant p
  | .reload => s.searchParams.pageNumber = some 1
  | _ => True

/-- The pages that come about in runs whose steps all meet a condition. -/
inductive Reachable (O : SearchParams → Prop) (C : ApprovalList → ListEvent → Prop) :
    ApprovalList → Prop where
  | openAt {p : SearchParams} : O p → Reachable O C (openAt p)
  | step {s s' : ApprovalList} {e : ListEvent} : Reachable O C s → C s e → s.step e = some s' →
      Reachable O C s'

/-! ## What the parts of a step do -/

variable {s s' : ApprovalList} {e : ListEvent} {p : SearchParams}

@[simp] theorem withApplicantName_applicantNameParam (p : SearchParams) (debounced : String) :
    (withApplicantName p debounced).applicantNameParam = debounced := by
  unfold withApplicantName SearchParams.applicantNameParam
  by_cases h : debounced = ""
  · rw [if_pos h, h]
    rfl
  · rw [if_neg h]
    rfl

@[simp] theorem withApplicantName_pageNumber (p : SearchParams) (debounced : String) :
    (withApplicantName p debounced).pageNumber = some 1 := parseInt_repr 1

/-- The text that the timer will set is the one in the input, and without a timer it has been
set. -/
structure Timed (s : ApprovalList) : Prop where
  pending : ∀ value, s.timer = some value → value = s.applicantNameInput
  settled : s.timer = none → s.applicantNameInput = s.debouncedApplicantName

theorem timed_mount (past : List SearchParams) (p : SearchParams) (future : List SearchParams) :
    (mount past p future).Timed where
  pending := by
    intro value h
    exact (Option.some.inj h).symm
  settled := by
    intro h
    cases h

theorem Timed.congr (h : s.Timed) (htimer : s'.timer = s.timer)
    (hinput : s'.applicantNameInput = s.applicantNameInput)
    (hdebounced : s'.debouncedApplicantName = s.debouncedApplicantName) : s'.Timed where
  pending := by
    intro value hvalue
    rw [htimer] at hvalue
    rw [hinput]
    exact h.pending value hvalue
  settled := by
    intro hnone
    rw [htimer] at hnone
    rw [hinput, hdebounced]
    exact h.settled hnone

@[simp] theorem setInput_applicantNameInput (s : ApprovalList) (value : String) :
    (s.setInput value).applicantNameInput = value := by
  unfold setInput
  split
  next heq => exact heq.symm
  next => rfl

@[simp] theorem setInput_debouncedApplicantName (s : ApprovalList) (value : String) :
    (s.setInput value).debouncedApplicantName = s.debouncedApplicantName := by
  unfold setInput
  split <;> rfl

@[simp] theorem setInput_searchParams (s : ApprovalList) (value : String) :
    (s.setInput value).searchParams = s.searchParams := by
  unfold setInput
  split <;> rfl

@[simp] theorem setInput_askedPage (s : ApprovalList) (value : String) :
    (s.setInput value).askedPage = s.askedPage := by
  unfold setInput
  split <;> rfl

/-- A pending timer will set what is in the input, and none is pending only if none was. -/
theorem setInput_timer (s : ApprovalList) (value : String) :
    (s.setInput value).timer = some value ∨
      value = s.applicantNameInput ∧ (s.setInput value).timer = s.timer := by
  unfold setInput
  by_cases heq : value = s.applicantNameInput
  · rw [if_pos heq]
    exact Or.inr ⟨heq, rfl⟩
  · rw [if_neg heq]
    exact Or.inl rfl

theorem Timed.setInput (h : s.Timed) (value : String) : (s.setInput value).Timed := by
  obtain htimer | ⟨heq, htimer⟩ := s.setInput_timer value
  · refine ⟨fun v hv => ?_, fun hnone => ?_⟩
    · rw [htimer] at hv
      rw [setInput_applicantNameInput]
      exact (Option.some.inj hv).symm
    · rw [htimer] at hnone
      cases hnone
  · exact h.congr htimer (by rw [setInput_applicantNameInput, heq])
      (setInput_debouncedApplicantName ..)

@[simp] theorem setDebounced_debouncedApplicantName (s : ApprovalList) (value : String)
    (seen : SearchParams) : (s.setDebounced value seen).debouncedApplicantName = value := by
  unfold setDebounced
  split
  next heq => exact heq.symm
  next => rfl

@[simp] theorem setDebounced_applicantNameInput (s : ApprovalList) (value : String)
    (seen : SearchParams) :
    (s.setDebounced value seen).applicantNameInput = s.applicantNameInput := by
  unfold setDebounced
  split <;> rfl

@[simp] theorem setDebounced_timer (s : ApprovalList) (value : String) (seen : SearchParams) :
    (s.setDebounced value seen).timer = s.timer := by
  unfold setDebounced
  split <;> rfl

/-- The effect has written the text into the URL, along with the first page, or there was nothing
to do. -/
theorem setDebounced_cases (s : ApprovalList) (value : String) (seen : SearchParams) :
    (value = s.debouncedApplicantName ∧ s.setDebounced value seen = s) ∨
      (value ≠ s.debouncedApplicantName ∧
        (s.setDebounced value seen).searchParams = withApplicantName seen value ∧
        (s.setDebounced value seen).askedPage = some 1) := by
  unfold setDebounced
  by_cases heq : value = s.debouncedApplicantName
  · rw [if_pos heq]
    exact Or.inl ⟨heq, rfl⟩
  · rw [if_neg heq]
    exact Or.inr ⟨heq, rfl, rfl⟩

theorem timed_step (h : s.Timed) (hs : s.step e = some s') : s'.Timed := by
  cases e with
  | type value =>
    cases hs
    exact h.setInput value
  | expire =>
    obtain ⟨value, hvalue, rfl⟩ := Option.map_eq_some_iff.mp hs
    have hinput := h.pending value hvalue
    refine ⟨fun v hv => ?_, fun _ => ?_⟩
    · rw [setDebounced_timer] at hv
      cases hv
    · rw [setDebounced_applicantNameInput, setDebounced_debouncedApplicantName, hinput]
  | changePage newPage =>
    cases hs
    exact h.congr rfl rfl rfl
  | changePerPage size =>
    cases hs
    exact h.congr rfl rfl rfl
  | reset after =>
    cases hs
    have hinput := h.setInput ""
    refine ⟨fun v hv => ?_, fun _ => ?_⟩
    · rw [setDebounced_timer] at hv
      rw [setDebounced_applicantNameInput]
      exact hinput.pending v hv
    · rw [setDebounced_applicantNameInput, setDebounced_debouncedApplicantName]
      exact setInput_applicantNameInput s ""
  | back =>
    simp only [step] at hs
    split at hs
    next => cases hs
    next =>
      cases hs
      exact h.congr rfl rfl rfl
  | forward =>
    simp only [step] at hs
    split at hs
    next => cases hs
    next =>
      cases hs
      exact h.congr rfl rfl rfl
  | reload =>
    cases hs
    exact timed_mount ..

/-! ## The URL is the state -/

/-- With the timer in order, it is enough to look at the URL. -/
theorem Timed.urlIsState_iff (h : s.Timed) :
    s.UrlIsState ↔ s.searchParams.pageNumber = s.askedPage ∧
      (s.timer = none → s.searchParams.applicantNameParam = s.debouncedApplicantName) := by
  refine ⟨fun hs => ⟨hs.page, fun hnone => (hs.texts hnone).2.symm⟩, fun hs => ⟨hs.1, ?_⟩⟩
  intro hnone
  exact ⟨h.settled hnone, (hs.2 hnone).symm⟩

theorem urlIsState_mount_iff {past future : List SearchParams} :
    (mount past p future).UrlIsState ↔ p.pageNumber = some 1 := by
  rw [(timed_mount past p future).urlIsState_iff]
  -- the effect of the debounced text has asked for the first page
  have hpage : (mount past p future).searchParams.pageNumber = some 1 :=
    withApplicantName_pageNumber ..
  have hasked : (mount past p future).askedPage = p.pageNumber := rfl
  rw [hpage, hasked]
  refine ⟨fun h => h.1.symm, fun h => ⟨h.symm, ?_⟩⟩
  intro hnone
  cases hnone

/-- Opening the page at an address requests the page asked for only if this is the first one. -/
theorem urlIsState_openAt_iff : (openAt p).UrlIsState ↔ p.pageNumber = some 1 :=
  urlIsState_mount_iff

/-- The timer expires: what the effect finds to change, it writes into the URL. -/
theorem urlIsState_expire_iff (ht : s.Timed) (h : s.UrlIsState) (hs : s.step .expire = some s') :
    s'.UrlIsState ↔ s.Heeds .expire := by
  rw [(timed_step ht hs).urlIsState_iff]
  obtain ⟨value, hvalue, rfl⟩ := Option.map_eq_some_iff.mp hs
  obtain ⟨heq, hsame⟩ | ⟨hne, hparams, hasked⟩ :=
    { s with timer := none }.setDebounced_cases value s.searchParams
  · rw [hsame]
    refine ⟨fun hs' _ => hs'.2 rfl, fun hheeds => ⟨h.page, fun _ => ?_⟩⟩
    exact hheeds (by rw [hvalue, heq])
  · rw [hparams, hasked, withApplicantName_pageNumber, withApplicantName_applicantNameParam,
      setDebounced_debouncedApplicantName]
    refine ⟨fun _ heq => ?_, fun _ => ⟨rfl, fun _ => rfl⟩⟩
    rw [hvalue] at heq
    exact absurd (Option.some.inj heq) hne

/-- A reset leaves no applicant in the URL, whichever parameters the effect sees. -/
theorem urlIsState_reset (ht : s.Timed) {after : Bool} (hs : s.step (.reset after) = some s') :
    s'.UrlIsState := by
  rw [(timed_step ht hs).urlIsState_iff]
  cases hs
  obtain ⟨heq, hsame⟩ | ⟨_, hparams, hasked⟩ :=
    ({ (s.setInput "").push .empty with askedPage := some 1 }).setDebounced_cases ""
      (if after then s.searchParams else .empty)
  · rw [hsame]
    exact ⟨parseInt_repr 1, fun _ => heq⟩
  · rw [hparams, hasked, withApplicantName_pageNumber, withApplicantName_applicantNameParam,
      setDebounced_debouncedApplicantName]
    exact ⟨rfl, fun _ => rfl⟩

/-- **What a step does is what the user asked for exactly when it is heeded.** -/
theorem urlIsState_step_iff (ht : s.Timed) (h : s.UrlIsState) (hs : s.step e = some s') :
    s'.UrlIsState ↔ s.Heeds e := by
  have ht' := timed_step ht hs
  obtain ⟨hpage, hurl⟩ := ht.urlIsState_iff.mp h
  cases e with
  | type value =>
    cases hs
    refine ⟨fun _ => trivial, fun _ => ?_⟩
    rw [ht'.urlIsState_iff, setInput_searchParams, setInput_askedPage,
      setInput_debouncedApplicantName]
    refine ⟨hpage, fun hnone => ?_⟩
    -- typing starts the timer, unless the text is the one already in the box
    obtain htimer | ⟨_, htimer⟩ := s.setInput_timer value
    · rw [htimer] at hnone
      cases hnone
    · rw [htimer] at hnone
      exact hurl hnone
  | expire => exact urlIsState_expire_iff ht h hs
  | changePage newPage =>
    cases hs
    refine ⟨fun _ => trivial, fun _ => ?_⟩
    rw [ht'.urlIsState_iff]
    exact ⟨parseInt_repr newPage, hurl⟩
  | changePerPage size =>
    cases hs
    refine ⟨fun _ => trivial, fun _ => ?_⟩
    rw [ht'.urlIsState_iff]
    exact ⟨parseInt_repr 1, hurl⟩
  | reset after => exact ⟨fun _ => trivial, fun _ => urlIsState_reset ht hs⟩
  | back =>
    rw [ht'.urlIsState_iff]
    simp only [step] at hs
    split at hs
    next => cases hs
    next p past hpast =>
      cases hs
      -- going back moves the address alone: it still agrees if the applicant is the same
      unfold Heeds SameApplicant
      rw [hpast]
      refine ⟨fun hs' q hq => ?_, fun hheeds => ⟨rfl, hheeds p rfl⟩⟩
      cases hq
      exact hs'.2
  | forward =>
    rw [ht'.urlIsState_iff]
    simp only [step] at hs
    split at hs
    next => cases hs
    next p future hfuture =>
      cases hs
      unfold Heeds SameApplicant
      rw [hfuture]
      refine ⟨fun hs' q hq => ?_, fun hheeds => ⟨rfl, hheeds p rfl⟩⟩
      cases hq
      exact hs'.2
  | reload =>
    cases hs
    exact urlIsState_mount_iff

/-! ## Runs -/

/-- An address at the first page. -/
def AtFirstPage (p : SearchParams) : Prop := p.pageNumber = some 1

theorem Reachable.timed {O : SearchParams → Prop} {C : ApprovalList → ListEvent → Prop}
    (h : Reachable O C s) : s.Timed := by
  induction h with
  | openAt _ => exact timed_mount ..
  | step _ _ hs ih => exact timed_step ih hs

/-- The induction over a run, with what the next step does. -/
theorem urlIsState_of_reachable (h : Reachable AtFirstPage Heeds s) : s.UrlIsState := by
  induction h with
  | openAt hfirst => exact urlIsState_openAt_iff.mpr hfirst
  | step hr hheeds hs ih => exact (urlIsState_step_iff hr.timed ih hs).mpr hheeds

/-- **The URL is the state** in every run that opens the page at the first page and in which every
step is heeded, and there the next step keeps it exactly if it is heeded. -/
theorem urlIsState (h : Reachable AtFirstPage Heeds s) :
    s.UrlIsState ∧ ∀ e s', s.step e = some s' → (s'.UrlIsState ↔ s.Heeds e) :=
  ⟨urlIsState_of_reachable h,
    fun _ _ hs => urlIsState_step_iff h.timed (urlIsState_of_reachable h) hs⟩

namespace Sample

/-- Opened without parameters, and the timer of the mount has expired. -/
def opened : ApprovalList := { openAt .empty with timer := none }

/-- The second page. -/
def second : ApprovalList :=
  { opened.push { opened.searchParams with page := some "2" } with askedPage := some 2 }

/-- An applicant is typed on the second page, and the timer has expired. -/
def filtered : ApprovalList :=
  { second with
    searchParams := ⟨some "1", none, some "sato"⟩, applicantNameInput := "sato"
    debouncedApplicantName := "sato", askedPage := some 1 }

/-- Back from there. -/
def returned : ApprovalList :=
  { filtered with
    past := [], searchParams := opened.searchParams, future := [filtered.searchParams] }

theorem reachable_filtered {O : SearchParams → Prop} {C : ApprovalList → ListEvent → Prop}
    (hopen : O .empty) (hexpire : C (openAt .empty) .expire) (hchange : C opened (.changePage 2))
    (htype : C second (.type "sato")) (hfilter : C (second.setInput "sato") .expire) :
    Reachable O C filtered := by
  have hopened : Reachable O C opened := .step (.openAt hopen) hexpire rfl
  have hsecond : Reachable O C second := .step hopened hchange rfl
  exact .step (.step hsecond htype rfl) hfilter rfl

end Sample

/-- After a change of the page and of the filter. -/
theorem urlIsState_of_filtered :
    Sample.filtered.UrlIsState ∧
      ∀ e s', Sample.filtered.step e = some s' → (s'.UrlIsState ↔ Sample.filtered.Heeds e) := by
  refine urlIsState (Sample.reachable_filtered ?_ ?_ trivial trivial ?_)
  · exact parseInt_repr 1
  · intro _
    rfl
  · intro h
    exact absurd h (by decide)

/-- The third page is opened, and the first one requested; and after a step back in the history the
filter shows another applicant than the URL. -/
theorem not_urlIsState_of_third_page :
    ((openAt ⟨some "3", none, none⟩).query.page = some 1 ∧
      ¬(openAt ⟨some "3", none, none⟩).UrlIsState) ∧
    Reachable AtFirstPage (fun _ _ => True) Sample.returned ∧ ¬Sample.returned.UrlIsState := by
  refine ⟨⟨parseInt_repr 1, fun h => ?_⟩, ?_, fun h => ?_⟩
  · have hpage : some (1 : Int) = some 3 :=
      (parseInt_repr 1).symm.trans (h.page.trans (parseInt_repr 3))
    cases hpage
  · have hfirst : AtFirstPage .empty := parseInt_repr 1
    exact .step (Sample.reachable_filtered hfirst trivial trivial trivial trivial)
      (e := .back) trivial rfl
  · exact absurd (h.texts rfl).2 (by decide)

end ApprovalList

end Frontend

end ExpenseSaas
