import ExpenseSaas.Go.Numbers
import ExpenseSaas.Postgres.Repository

/-!
# The page parameters of the lists

Five endpoints take `page` and `per_page` from the query string. `ListAllReports`
reads them with `strconv.Atoi`, the three parsers behind the other four with
`fmt.Sscanf`. What `Atoi` accepts `Sscanf` reads as well, and as the same number,
so they differ where `Sscanf` finds a number in text that is not one
(`agree_iff`), and where it gives up before `Atoi` does.

A parameter that is empty counts as not given: `ListAllReports` leaves it zero,
and the service puts the default there that the parsers begin with.
-/

namespace ExpenseSaas

/-- `middleware.ValidationError`. -/
structure ValidationError where
  field : String
  message : String
  deriving DecidableEq, Repr

namespace Handler

/-- `page` is not a positive number. -/
def pageError : ValidationError := ⟨"page", "page は正の整数でなければなりません"⟩

/-- `per_page` is not a positive number. -/
def perPageError : ValidationError := ⟨"per_page", "per_page は正の整数でなければなりません"⟩

/-- `per_page` is too large. -/
def perPageLimitError : ValidationError := ⟨"per_page", "per_page の上限は 100 です"⟩

/-! ## `ListAllReports` -/

namespace ListAllReports

/-- `page` is parsed and checked. -/
def page (pageStr : String) : Except ValidationError Int :=
  if pageStr = "" then .ok 0
  else match Go.atoi pageStr.toList with
    | none => .error pageError
    | some v => if v ≤ 0 then .error pageError else .ok v

/-- `per_page` is parsed and checked. -/
def perPage (perPageStr : String) : Except ValidationError Int :=
  if perPageStr = "" then .ok 0
  else match Go.atoi perPageStr.toList with
    | none => .error perPageError
    | some v => if v ≤ 0 then .error perPageError else if v > 100 then .error perPageLimitError else .ok v

end ListAllReports

/-! ## The parsers -/

/-- `parseIntQuery`. -/
def parseIntQuery (s : String) : Option Int := Go.sscanInt s.toList

/-- How the three parsers read `page`. -/
def queryPage (pageStr : String) : Except ValidationError Int :=
  if pageStr = "" then .ok 1
  else match parseIntQuery pageStr with
    | none => .error pageError
    | some page => if page < 1 then .error pageError else .ok page

/-- How they read `per_page`. -/
def queryPerPage (perPageStr : String) : Except ValidationError Int :=
  if perPageStr = "" then .ok 20
  else match parseIntQuery perPageStr with
    | none => .error perPageError
    | some perPage =>
        if perPage < 1 then .error perPageError
        else if perPage > 100 then .error perPageLimitError else .ok perPage

namespace ParseReportListParams

def page : String → Except ValidationError Int := queryPage

def perPage : String → Except ValidationError Int := queryPerPage

end ParseReportListParams

namespace ParseWorkflowListParams

def page : String → Except ValidationError Int := queryPage

def perPage : String → Except ValidationError Int := queryPerPage

end ParseWorkflowListParams

namespace ParseProcessedListParams

def page : String → Except ValidationError Int := queryPage

def perPage : String → Except ValidationError Int := queryPerPage

end ParseProcessedListParams

/-- What each endpoint makes of `page`. -/
def pages (s : String) : List (Except ValidationError Int) :=
  [ListAllReports.page s, ParseReportListParams.page s, ParseWorkflowListParams.page s,
    ParseProcessedListParams.page s]

/-- And of `per_page`. -/
def perPages (s : String) : List (Except ValidationError Int) :=
  [ListAllReports.perPage s, ParseReportListParams.perPage s, ParseWorkflowListParams.perPage s,
    ParseProcessedListParams.perPage s]

/-- The page that is used, the first one if none is given. -/
def usedPage (page : Int) : Int := if page ≤ 0 then 1 else page

/-! ## Agreement -/

/-- All refuse the parameter, or all take it for the same number. -/
def Agree (results : List (Except ValidationError Int)) (used : Int → Int) : Prop :=
  (∀ r ∈ results, ∃ e, r = .error e) ∨ ∃ v, ∀ r ∈ results, ∃ w, r = .ok w ∧ used w = v

/-- Where a number is read out of the text, the text is that number, and it is not too long. -/
structure IsNumber (s : String) (ok : Int → Prop) : Prop where
  whole : ∀ sp num rest v, s.toList.take Go.hugeWid = sp ++ (num ++ rest) → Go.Spaces sp → Go.Numeral num v →
    Go.Ends rest → ok v → s.toList = num
  short : ∀ v, Go.Numeral s.toList v → ok v → s.toList.length ≤ Go.hugeWid

section

variable {s : String} {v : Int} {ok : Int → Prop} {used : Int → Int} {all query : Except ValidationError Int}

/-- Whether the four agree depends on two of them. -/
theorem agree_of_two : Agree [all, query, query, query] used ↔
    ((∀ v, all ≠ .ok v) ∧ ∀ v, query ≠ .ok v) ∨
      ∃ v w, all = .ok v ∧ query = .ok w ∧ used v = used w := by
  have herror : ∀ r : Except ValidationError Int, (∃ e, r = .error e) ↔ ∀ v, r ≠ .ok v := by
    intro r
    cases r with
    | error e => exact iff_of_true ⟨e, rfl⟩ fun v h => by cases h
    | ok v => exact iff_of_false (fun ⟨e, h⟩ => by cases h) fun h => h v rfl
  unfold Agree
  refine or_congr ?_ ?_
  · rw [List.forall_mem_cons, List.forall_mem_cons, herror, herror]
    refine and_congr_right fun _ => ⟨fun h => h.1, fun h => ⟨h, fun r hr => ?_⟩⟩
    obtain rfl : r = query := by simpa using hr
    exact (herror r).mpr h
  · constructor
    · rintro ⟨u, h⟩
      obtain ⟨v, hv, hu⟩ := h all List.mem_cons_self
      obtain ⟨w, hw, hu'⟩ := h query (List.mem_cons_of_mem _ List.mem_cons_self)
      exact ⟨v, w, hv, hw, hu.trans hu'.symm⟩
    · rintro ⟨v, w, hv, hw, hused⟩
      refine ⟨used w, fun r hr => ?_⟩
      rcases List.mem_cons.mp hr with rfl | hr
      · exact ⟨v, hv, hused⟩
      · obtain rfl : r = query := by simpa using hr
        exact ⟨w, hw, rfl⟩

/-- **Agreement on text that is not empty.** -/
theorem agree_of_parsed (hall : ∀ v, all = .ok v ↔ Go.atoi s.toList = some v ∧ ok v)
    (hquery : ∀ v, query = .ok v ↔ parseIntQuery s = some v ∧ ok v) (hused : ∀ v, ok v → used v = v)
    (hpos : ∀ v, ok v → 1 ≤ v) : Agree [all, query, query, query] used ↔ IsNumber s ok := by
  rw [agree_of_two]
  constructor
  · intro hagree
    -- What one of the two accepts, the other one accepts as the same number.
    have hsame : ∀ v, all = .ok v ∨ query = .ok v → all = .ok v ∧ query = .ok v := by
      intro v hv
      rcases hagree with ⟨hnot, hnot'⟩ | ⟨x, y, hx, hy, hxy⟩
      · rcases hv with hv | hv
        · exact absurd hv (hnot v)
        · exact absurd hv (hnot' v)
      · rw [hused x ((hall x).mp hx).2, hused y ((hquery y).mp hy).2] at hxy
        subst hxy
        rcases hv with hv | hv
        · cases hv.symm.trans hx
          exact ⟨hx, hy⟩
        · cases hv.symm.trans hy
          exact ⟨hx, hy⟩
    have hshort : ∀ v, Go.Numeral s.toList v → ok v → s.toList.length ≤ Go.hugeWid := by
      intro v hnum hok
      have hboth := hsame v (Or.inl ((hall v).mpr ⟨Go.parseInt_eq_some.mpr hnum, hok⟩))
      by_contra hlong
      exact hnum.scanInt_take (hpos v hok) (Nat.lt_of_not_le hlong) ((hquery v).mp hboth.2).1
    refine ⟨fun sp num rest v htake hsp hnum hends hok => ?_, hshort⟩
    have hscan : parseIntQuery s = some v :=
      Go.scanInt_eq_some.mpr ⟨sp, num, rest, htake, hsp, hnum, hends⟩
    have hboth := hsame v (Or.inr ((hquery v).mpr ⟨hscan, hok⟩))
    have hwhole : Go.Numeral s.toList v := Go.parseInt_eq_some.mp ((hall v).mp hboth.1).1
    rw [List.take_of_length_le (hshort v hwhole hok)] at htake
    rw [htake] at hwhole ⊢
    exact hwhole.whole hsp hnum hends
  · intro hnumber
    by_cases haccepts : ∃ v, all = .ok v
    · obtain ⟨v, hv⟩ := haccepts
      obtain ⟨hatoi, hok⟩ := (hall v).mp hv
      have hnum : Go.Numeral s.toList v := Go.parseInt_eq_some.mp hatoi
      have hscan : parseIntQuery s = some v := by
        unfold parseIntQuery Go.sscanInt
        rw [List.take_of_length_le (hnumber.short v hnum hok)]
        exact hnum.scanInt
      exact Or.inr ⟨v, v, hv, (hquery v).mpr ⟨hscan, hok⟩, rfl⟩
    · refine Or.inl ⟨fun v hv => haccepts ⟨v, hv⟩, fun v hv => haccepts ⟨v, ?_⟩⟩
      obtain ⟨hscan, hok⟩ := (hquery v).mp hv
      obtain ⟨sp, num, rest, htake, hsp, hnum, hends⟩ := Go.scanInt_eq_some.mp hscan
      have hwhole := hnumber.whole sp num rest v htake hsp hnum hends hok
      rw [← hwhole] at hnum
      exact (hall v).mpr ⟨Go.parseInt_eq_some.mpr hnum, hok⟩

/-- Nothing is no number. -/
theorem isNumber_empty : IsNumber "" ok := by
  have hnot : ∀ v, ¬ Go.Numeral [] v := by
    intro v h
    cases h with
    | unsigned hds hlt => cases hds
  refine ⟨fun sp num rest v htake hsp hnum hends hok => ?_, fun v hnum hok => absurd hnum (hnot v)⟩
  rw [String.toList_empty, List.take_nil] at htake
  have hnil := (List.append_eq_nil_iff.mp (List.append_eq_nil_iff.mp htake.symm).2).1
  rw [hnil] at hnum
  exact absurd hnum (hnot v)

/-- What is checked goes on if it is not refused. -/
theorem refused_iff {p : Prop} [Decidable p] {e : ValidationError} {r : Except ValidationError Int} :
    (if p then .error e else r) = .ok v ↔ ¬ p ∧ r = .ok v := by
  split
  · rename_i hp
    exact iff_of_false (fun h => by cases h) fun h => h.1 hp
  · rename_i hp
    exact ⟨fun h => ⟨hp, h⟩, fun h => h.2⟩

theorem page_eq_ok (hs : s ≠ "") : ListAllReports.page s = .ok v ↔ Go.atoi s.toList = some v ∧ 1 ≤ v := by
  unfold ListAllReports.page
  rw [if_neg hs]
  cases Go.atoi s.toList with
  | none => exact iff_of_false (fun h => by cases h) fun h => by cases h.1
  | some x =>
    show (if _ then _ else _) = _ ↔ _
    rw [refused_iff, Except.ok.injEq, Option.some.injEq]
    omega

theorem queryPage_eq_ok (hs : s ≠ "") : queryPage s = .ok v ↔ parseIntQuery s = some v ∧ 1 ≤ v := by
  unfold queryPage
  rw [if_neg hs]
  cases parseIntQuery s with
  | none => exact iff_of_false (fun h => by cases h) fun h => by cases h.1
  | some x =>
    show (if _ then _ else _) = _ ↔ _
    rw [refused_iff, Except.ok.injEq, Option.some.injEq]
    omega

theorem perPage_eq_ok (hs : s ≠ "") :
    ListAllReports.perPage s = .ok v ↔ Go.atoi s.toList = some v ∧ 1 ≤ v ∧ v ≤ 100 := by
  unfold ListAllReports.perPage
  rw [if_neg hs]
  cases Go.atoi s.toList with
  | none => exact iff_of_false (fun h => by cases h) fun h => by cases h.1
  | some x =>
    show (if _ then _ else _) = _ ↔ _
    rw [refused_iff, refused_iff, Except.ok.injEq, Option.some.injEq]
    omega

theorem queryPerPage_eq_ok (hs : s ≠ "") :
    queryPerPage s = .ok v ↔ parseIntQuery s = some v ∧ 1 ≤ v ∧ v ≤ 100 := by
  unfold queryPerPage
  rw [if_neg hs]
  cases parseIntQuery s with
  | none => exact iff_of_false (fun h => by cases h) fun h => by cases h.1
  | some x =>
    show (if _ then _ else _) = _ ↔ _
    rw [refused_iff, refused_iff, Except.ok.injEq, Option.some.injEq]
    omega

end

/--
**The endpoints agree on a parameter** exactly when no number is read out of the
text but the text itself.
-/
theorem agree_iff (s : String) :
    (Agree (pages s) usedPage ↔ IsNumber s fun v => 1 ≤ v) ∧
      (Agree (perPages s) limitOf ↔ IsNumber s fun v => 1 ≤ v ∧ v ≤ 100) := by
  by_cases hs : s = ""
  · subst hs
    constructor
    · exact iff_of_true (agree_of_two.mpr (Or.inr ⟨0, 1, rfl, rfl, rfl⟩)) isNumber_empty
    · exact iff_of_true (agree_of_two.mpr (Or.inr ⟨0, 20, rfl, rfl, rfl⟩)) isNumber_empty
  · constructor
    · refine agree_of_parsed (fun v => page_eq_ok hs) (fun v => queryPage_eq_ok hs) (fun v hv => ?_) fun v hv => hv
      exact if_neg (by omega)
    · refine agree_of_parsed (fun v => perPage_eq_ok hs) (fun v => queryPerPage_eq_ok hs) (fun v hv => ?_)
        fun v hv => hv.1
      unfold limitOf
      simp only
      rw [if_neg (by omega), if_neg (by omega)]

/-- **A number with something behind it**: one endpoint refuses it, the others take the number. -/
theorem not_agree_of_tail : ListAllReports.page "2abc" = .error pageError ∧
    ParseReportListParams.page "2abc" = .ok 2 ∧ ¬ Agree (pages "2abc") usedPage := by
  have hall : ListAllReports.page "2abc" = .error pageError := by decide +kernel
  have hquery : ParseReportListParams.page "2abc" = .ok 2 := by decide +kernel
  refine ⟨hall, hquery, fun h => ?_⟩
  rcases h with h | ⟨v, h⟩
  · obtain ⟨e, he⟩ := h _ (List.mem_cons_of_mem _ List.mem_cons_self)
    cases he.symm.trans hquery
  · obtain ⟨w, hw, _⟩ := h _ List.mem_cons_self
    cases hw.symm.trans hall

end Handler

end ExpenseSaas
