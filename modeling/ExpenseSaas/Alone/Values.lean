import Mathlib.Data.Nat.Digits.Defs
import ExpenseSaas.Alone.Amounts

/-!
# Values and columns

What a handler lets through is checked a second time by the tables: the length
and the encoding of a text, the range of a number, the `CHECK` constraints. The
errors of these checks are told apart from all others (`SqlError.ofValue`), and
each row that is written is said to be free of them exactly when its values fit
their columns, whatever else may be wrong with it.
-/

namespace ExpenseSaas

open ReadCommitted Sql

/-- The error says that a value does not fit: too long, not encodable, out of range, or against a `CHECK`. -/
def SqlError.ofValue : SqlError → Bool
  | .stringDataRightTruncation => true
  | .characterNotInRepertoire => true
  | .numericValueOutOfRange => true
  | .checkViolation => true
  | _ => false

/-! ## Columns -/

/-- A `VARCHAR(n)` column can hold the text: no zero byte, and nothing but blanks after `n` characters. -/
def Storable (n : Nat) (s : String) : Prop :=
  (∀ c ∈ s.toList, c.toNat ≠ 0) ∧ ∀ c ∈ s.toList.drop n, c = ' '

instance (n : Nat) (s : String) : Decidable (Storable n s) :=
  have := List.decidableBAll (fun c : Char => c.toNat ≠ 0) s.toList
  have := List.decidableBAll (fun c : Char => c = ' ') (s.toList.drop n)
  instDecidableAnd

/-- The column can hold what a client sends as bytes: they are the UTF-8 of such a text. -/
def StorableBytes (n : Nat) (s : Go.Str) : Prop := ∃ t, s = Go.lit t ∧ Storable n t

/-- The nullable column can. -/
def StorableNull (n : Nat) (s : Option String) : Prop := ∀ t ∈ s, Storable n t

/-- No value does not fit here, whatever else may be wrong. -/
def NoValueError {α : Type} (x : Except SqlError α) : Prop := ∀ e, x = .error e → e.ofValue = false

section

variable {α β : Type} {n : Nat} {s : String} {b : Bool} {a : α} {x : Except SqlError α}

@[simp] theorem noValueError_ok : NoValueError (.ok a) ↔ True :=
  ⟨fun _ => trivial, fun _ e he => by cases he⟩

@[simp] theorem noValueError_error {e : SqlError} :
    NoValueError (.error e : Except SqlError α) ↔ e.ofValue = false := by
  constructor
  · exact fun h => h e rfl
  · intro h e' he
    cases he
    exact h

theorem noValueError_bind {f : α → Except SqlError β} :
    NoValueError (x >>= f) ↔ NoValueError x ∧ ∀ a, x = .ok a → NoValueError (f a) := by
  cases x with
  | ok a =>
    constructor
    · intro h
      refine ⟨noValueError_ok.mpr trivial, fun a' ha => ?_⟩
      cases ha
      exact h
    · exact fun h => h.2 a rfl
  | error e =>
    constructor
    · intro h
      refine ⟨noValueError_error.mpr (h e rfl), fun a ha => ?_⟩
      cases ha
    · intro h e' he
      cases he
      exact h.1 e rfl

@[simp] theorem noValueError_map {f : α → β} : NoValueError (x.map f) ↔ NoValueError x := by
  cases x with
  | ok a => simp [Except.map]
  | error e => simp [Except.map]

@[simp] theorem noValueError_check : NoValueError (check b) ↔ b = true := by
  cases b with
  | true => simp [check]
  | false => simp [check, SqlError.ofValue]

@[simp] theorem noValueError_references : NoValueError (references b) ↔ True := by
  cases b with
  | true => simp [references]
  | false => simp [references, SqlError.ofValue]

theorem noValueError_int4 {i : Int} : NoValueError (int4 i) ↔ -2 ^ 31 ≤ i ∧ i < 2 ^ 31 := by
  unfold int4
  split
  · rename_i h
    exact ⟨fun _ => h, fun _ => noValueError_ok.mpr trivial⟩
  · rename_i h
    refine ⟨fun hno => ?_, fun hin => absurd hin h⟩
    cases noValueError_error.mp hno

/-- **What a column takes.** -/
theorem varchar_ok_iff : (∃ s', varchar n s = .ok s') ↔ Storable n s := by
  have hblank : (∃ s' : String, (if s.toList.length ≤ n then .ok s
      else if (s.toList.drop n).all (fun c => c = ' ') then .ok (String.ofList (s.toList.take n))
      else .error .stringDataRightTruncation : Except SqlError String) = .ok s') ↔
      ∀ c ∈ s.toList.drop n, c = ' ' := by
    split
    · rename_i hlen
      refine ⟨fun _ c hc => ?_, fun _ => ⟨s, rfl⟩⟩
      rw [List.drop_eq_nil_of_le hlen] at hc
      cases hc
    · split
      · rename_i hall
        refine ⟨fun _ c hc => ?_, fun _ => ⟨_, rfl⟩⟩
        exact of_decide_eq_true (List.all_eq_true.mp hall c hc)
      · rename_i hall
        constructor
        · rintro ⟨s', hs'⟩
          cases hs'
        · intro h
          exact absurd (List.all_eq_true.mpr fun c hc => decide_eq_true (h c hc)) hall
  unfold varchar Storable
  rw [← hblank]
  constructor
  · rintro ⟨s', hs'⟩
    obtain ⟨x, hx, hfits⟩ := Except.bind_eq_ok.mp hs'
    obtain ⟨hzero, rfl⟩ := text_eq_ok.mp hx
    exact ⟨hzero, s', hfits⟩
  · rintro ⟨hzero, s', hfits⟩
    exact ⟨s', Except.bind_eq_ok.mpr ⟨s, text_eq_ok.mpr ⟨hzero, rfl⟩, hfits⟩⟩

/-- It refuses nothing but what does not fit. -/
theorem noValueError_varchar : NoValueError (varchar n s) ↔ Storable n s := by
  rw [← varchar_ok_iff]
  cases hv : varchar n s with
  | ok s' => simp
  | error e =>
    have hvalue : e.ofValue = true := by
      unfold varchar text at hv
      split at hv
      · cases hv
        rfl
      · simp only [bind, Except.bind] at hv
        split at hv
        · cases hv
        · split at hv
          · cases hv
          · cases hv
            rfl
    simp [hvalue]

theorem noValueError_utf8 {s : Go.Str} : NoValueError (utf8 s) ↔ ∃ t, s = Go.lit t := by
  cases h : utf8 s with
  | ok t => simp [utf8_eq_ok.mp h]
  | error e =>
    have hvalue : e.ofValue = true := by
      unfold utf8 at h
      split at h
      · cases h
      · cases h
        rfl
    have hnone : ∀ t, s ≠ Go.lit t := by
      intro t ht
      rw [utf8_eq_ok.mpr ht] at h
      cases h
    simp [hvalue, hnone]

theorem noValueError_varcharNull {t : Option String} : NoValueError (varcharNull n t) ↔ StorableNull n t := by
  cases t with
  | none => simp [varcharNull, StorableNull]
  | some t => simp [varcharNull, StorableNull, noValueError_varchar]

theorem varcharNull_ok_of_storable {t : Option String} (h : StorableNull n t) :
    ∃ t', varcharNull n t = .ok t' := by
  cases t with
  | none => exact ⟨none, rfl⟩
  | some t =>
    obtain ⟨t', ht'⟩ := varchar_ok_iff.mpr (h t rfl)
    exact ⟨some t', by rw [varcharNull, ht']; rfl⟩

end

/-! ## Rows -/

section

variable {d snap cur : Database} {clock o : Oracle}

theorem noValueError_checkReport {r : ExpenseReport} :
    NoValueError (checkReport r) ↔ r.periodStart.le r.periodEnd = true ∧ 0 ≤ r.totalAmount := by
  unfold checkReport
  rw [noValueError_bind, noValueError_check]
  refine and_congr_right fun hperiod => ?_
  constructor
  · intro h
    have h := h () (check_eq_ok.mpr hperiod)
    rw [noValueError_bind, noValueError_check] at h
    exact of_decide_eq_true h.1
  · intro htotal _ _
    rw [noValueError_bind, noValueError_check]
    exact ⟨decide_eq_true htotal, fun _ _ => noValueError_ok.mpr trivial⟩

theorem noValueError_reportRow {p : Sql.CreateReportParams} (hperiod : p.periodStart.le p.periodEnd = true) :
    NoValueError (reportRow p d clock o) ↔ Storable 200 p.title := by
  unfold reportRow
  rw [noValueError_bind, noValueError_varchar]
  refine ⟨And.left, fun h => ⟨h, fun title _ => ?_⟩⟩
  rw [noValueError_bind, noValueError_checkReport]
  refine ⟨⟨hperiod, Int.le_refl 0⟩, fun r _ => ?_⟩
  simp [noValueError_bind]

theorem noValueError_setReport {p : Sql.UpdateReportParams} {r : ExpenseReport}
    (hperiod : p.periodStart.le p.periodEnd = true) (htotal : 0 ≤ r.totalAmount) :
    NoValueError (setReport p snap cur clock r) ↔ Storable 200 p.title := by
  unfold setReport
  rw [noValueError_bind, noValueError_varchar]
  refine ⟨And.left, fun h => ⟨h, fun title _ => ?_⟩⟩
  rw [noValueError_checkReport]
  exact ⟨hperiod, htotal⟩

theorem noValueError_setReportStatus {p : UpdateReportStatusParams} {r : ExpenseReport} :
    NoValueError (setReportStatus p snap cur clock r) ↔
      StorableNull 1000 p.approvalComment ∧ StorableNull 1000 p.rejectionReason := by
  unfold setReportStatus
  simp only [noValueError_bind, noValueError_varcharNull]
  constructor
  · rintro ⟨hcomment, hrest⟩
    obtain ⟨comment, hc⟩ := varcharNull_ok_of_storable hcomment
    exact ⟨hcomment, (hrest comment hc).1⟩
  · rintro ⟨hcomment, hreason⟩
    refine ⟨hcomment, fun _ _ => ⟨hreason, fun _ _ => ?_⟩⟩
    simp [userColumn]

theorem noValueError_itemRow {p : CreateExpenseItemParams} :
    NoValueError (itemRow p d clock o) ↔ Storable 500 p.description ∧ 0 < p.amount := by
  unfold itemRow
  rw [noValueError_bind, noValueError_varchar]
  refine and_congr_right fun hdesc => ?_
  obtain ⟨description, hdesc⟩ := varchar_ok_iff.mpr hdesc
  constructor
  · intro h
    have h := h description hdesc
    rw [noValueError_bind, noValueError_check] at h
    exact of_decide_eq_true h.1
  · intro hamount description _
    rw [noValueError_bind, noValueError_check]
    refine ⟨decide_eq_true hamount, fun _ _ => ?_⟩
    simp [noValueError_bind]

theorem noValueError_setItem {p : UpdateExpenseItemParams} {x : ExpenseItem} :
    NoValueError (setItem p snap cur clock x) ↔ Storable 500 p.description ∧ 0 < p.amount := by
  unfold setItem
  rw [noValueError_bind, noValueError_varchar]
  refine and_congr_right fun hdesc => ?_
  obtain ⟨description, hdesc⟩ := varchar_ok_iff.mpr hdesc
  constructor
  · intro h
    have h := h description hdesc
    rw [noValueError_bind, noValueError_check] at h
    exact of_decide_eq_true h.1
  · intro hamount description _
    rw [noValueError_bind, noValueError_check]
    refine ⟨decide_eq_true hamount, fun _ _ => ?_⟩
    simp [noValueError_bind]

theorem noValueError_attachmentRow {p : CreateAttachmentParams} (hkey : Storable 500 p.s3Key)
    (hsize : 0 < p.fileSize ∧ p.fileSize ≤ 5242880) (hmime : p.mimeType.isValid = true) :
    NoValueError (attachmentRow p d clock o) ↔ StorableBytes 255 p.fileName := by
  unfold attachmentRow StorableBytes
  rw [noValueError_bind, noValueError_utf8]
  constructor
  · rintro ⟨⟨t, ht⟩, h⟩
    have hname := h t (utf8_eq_ok.mpr ht)
    rw [noValueError_bind, noValueError_varchar] at hname
    exact ⟨t, ht, hname.1⟩
  rintro ⟨t, ht, hstorable⟩
  refine ⟨⟨t, ht⟩, fun t' ht' => ?_⟩
  obtain rfl : t = t' := Except.ok.inj ((utf8_eq_ok.mpr ht).symm.trans ht')
  rw [noValueError_bind, noValueError_varchar]
  refine ⟨hstorable, fun _ _ => ?_⟩
  rw [noValueError_bind, noValueError_varchar]
  refine ⟨hkey, fun _ _ => ?_⟩
  simp [noValueError_bind, hsize, hmime]

theorem noValueError_setTotal {r : ExpenseReport} (hperiod : r.periodStart.le r.periodEnd = true)
    (hsum : 0 ≤ sumOfItems snap r.tenantID r.reportID) :
    NoValueError (setReportTotalAmount snap cur clock r) ↔
      sumOfItems snap r.tenantID r.reportID < 2 ^ 31 := by
  unfold setReportTotalAmount
  rw [noValueError_bind, noValueError_int4]
  constructor
  · exact fun h => h.1.2
  · intro hlt
    refine ⟨⟨by omega, hlt⟩, fun total htotal => ?_⟩
    rw [noValueError_checkReport]
    refine ⟨hperiod, ?_⟩
    unfold int4 at htotal
    split at htotal
    · cases htotal
      exact hsum
    · cases htotal

end

/-! ## Statements -/

section

variable {R β : Type} {T : Relation R} {d : Database} {clock : Oracle}

theorem noValueError_inserted {row : Except SqlError R} {resp : R → β} :
    NoValueError (T.inserted row resp d) ↔ NoValueError row := by
  unfold Relation.inserted
  rw [noValueError_bind]
  refine ⟨And.left, fun h => ⟨h, fun r _ => ?_⟩⟩
  cases d.taken (T.wrap r) with
  | true => exact noValueError_error.mpr rfl
  | false => exact noValueError_ok.mpr trivial

theorem noValueError_updated {cond : R → Bool} {resp : List R → β} {r : R}
    {set : Database → Database → Oracle → R → Except SqlError R} (hr : T.first cond d = some r) :
    NoValueError (T.updated cond set resp clock d) ↔ NoValueError (set d d clock r) := by
  unfold Relation.updated
  rw [hr]
  exact noValueError_map

end

section

variable {α : Type} {env : Nat → Oracle} {db d : Database} {clock : Oracle} {n : Nat} {s : Solo server}
  {t k : UUID}

/-- **No statement of the service fails because of a value**, alone from `s`. -/
abbrev NoValueFails (env : Nat → Oracle) (x : Service α) (s : Solo server) : Prop :=
  Spared (E := server) SqlError.ofValue env x.run s

theorem noValueFails_sql {q : Stmt} :
    NoValueFails env (sql q) (.inside db clock d n) ↔ NoValueError (server.alone q clock (env n) d) := by
  unfold sql
  refine (spared_before (E := server) fun _ _ _ => spared_ofExcept.mpr trivial).trans ?_
  refine (spared_call (E := server)).trans ?_
  cases hq : server.alone q clock (env n) d with
  | ok x =>
    obtain ⟨r, d'⟩ := x
    have hstep : Solo.step env (.inside db clock d n) (.sql q) = (.ok r, .inside db clock d' (n + 1)) := by
      simp only [Solo.inside, Solo.step, hq]
      rfl
    rw [hstep]
    exact ⟨fun _ => noValueError_ok.mpr trivial, fun _ => rfl⟩
  | error e =>
    have hstep : Solo.step env (.inside db clock d n) (.sql q) =
        (.error e, ⟨db, some ⟨clock, d, true⟩, n + 1⟩) := by
      simp only [Solo.inside, Solo.step, hq]
      rfl
    rw [hstep]
    exact noValueError_error.symm

theorem noValueFails_errorf {context : String} {x : Service α} :
    NoValueFails env (errorf context x) s ↔ NoValueFails env x s := spared_mapError

theorem noValueFails_orNoRows {e : DomainError} {row : Option α} : NoValueFails env (orNoRows e row) s := by
  cases row with
  | none => exact spared_throw.mpr trivial
  | some r => exact spared_pure.mpr trivial

/-- What only looks things up does not fail. -/
theorem noValueFails_of_looks {x : Service α} (hx : Looks t x) : NoValueFails env x (.inside db clock d n) :=
  spared_of_calm (Prog.only_mono hx fun _ => calm_of_looksUp)

/-- After something was looked up and found. -/
theorem noValueFails_after {β : Type} {x : Service β} {f : β → Service α} {b : β} {s' : Solo server}
    (hx : Looks t x) (h : GivesAlone env x (.inside db clock d n) b s') :
    NoValueFails env (x >>= f) (.inside db clock d n) ↔ NoValueFails env (f b) s' :=
  spared_after (noValueFails_of_looks hx) h

/-- A row that is written back, if it is still there. -/
theorem noValueFails_writeBack {R : Type} {T : Relation R} {cond : R → Bool} {r : R} {q : Stmt}
    {set : Database → Database → Oracle → R → Except SqlError R} {context : String} {e : DomainError}
    {x : Service (Option R)} {resp : List R → q.Result}
    (hx : NoValueFails env x (.inside db clock d n) ↔ NoValueError (server.alone q clock (env n) d))
    (halone : server.alone q clock (env n) d = T.updated cond set resp clock d)
    (hr : T.first cond d = some r) :
    NoValueFails env (do let row ← errorf context x; orNoRows e row) (.inside db clock d n) ↔
      NoValueError (set d d clock r) := by
  refine (spared_before (E := server) fun _ _ _ => noValueFails_orNoRows).trans ?_
  rw [← NoValueFails, noValueFails_errorf, hx, halone]
  exact noValueError_updated hr

end

end ExpenseSaas
