import ExpenseSaas.Alone.Statements
import ExpenseSaas.Paging.Pages
import ExpenseSaas.Runs.Schedules

/-!
# The paged lists

Five endpoints answer one page of a list of reports each, from a `SELECT` with
`ORDER BY`, `LIMIT` and `OFFSET` and a `COUNT` with the same `WHERE`. Every
request is a transaction of its own, and the database is free to arrange rows
that the sort keys do not tell apart, each time anew.

`serve_listing` is what a request for a page answers, and `partitioned_iff` when
all pages together are the list: exactly when no row can stand on either side of
the edge of a page. Two of the five lists end their sort keys with the report
id, so their rows never tie (`not_astride_of_unique`); the others do not.
-/

namespace ExpenseSaas

open ReadCommitted Sql Paging

/-! ## Sort keys -/

theorem keysLe_total (a b : List Int) : keysLe a b = true ∨ keysLe b a = true := by
  induction a generalizing b with
  | nil => exact Or.inl rfl
  | cons x a ih =>
    cases b with
    | nil => exact Or.inr rfl
    | cons y b =>
      simp only [keysLe, Bool.or_eq_true, Bool.and_eq_true, decide_eq_true_eq]
      rcases Int.lt_trichotomy x y with hlt | rfl | hgt
      · exact Or.inl (Or.inl hlt)
      · exact (ih b).imp (fun h => Or.inr ⟨rfl, h⟩) fun h => Or.inr ⟨rfl, h⟩
      · exact Or.inr (Or.inl hgt)

theorem keysLe_trans {a b c : List Int} (h : keysLe a b = true) (h' : keysLe b c = true) :
    keysLe a c = true := by
  induction a generalizing b c with
  | nil => rfl
  | cons x a ih =>
    cases b with
    | nil => cases h
    | cons y b =>
      cases c with
      | nil => cases h'
      | cons z c =>
        simp only [keysLe, Bool.or_eq_true, Bool.and_eq_true, decide_eq_true_eq] at h h' ⊢
        rcases h with hxy | ⟨rfl, hab⟩
        · rcases h' with hyz | ⟨rfl, _⟩
          · exact Or.inl (Int.lt_trans hxy hyz)
          · exact Or.inl hxy
        · rcases h' with hyz | ⟨rfl, hbc⟩
          · exact Or.inl hyz
          · exact Or.inr ⟨rfl, ih hab hbc⟩

/-- Keys that are equally many are told apart by one more only where they tie. -/
theorem keysLe_append {a b : List Int} {x y : Int} (h : a.length = b.length) :
    keysLe (a ++ asc x) (b ++ asc y) = (keysLe a b && (!keysLe b a || decide (x ≤ y))) := by
  induction a generalizing b with
  | nil =>
    rw [List.length_nil, eq_comm, List.length_eq_zero_iff] at h
    subst h
    simp only [List.nil_append, asc, keysLe, Bool.and_true, Bool.true_and, Bool.not_true,
      Bool.false_or]
    rcases Int.lt_trichotomy x y with hlt | rfl | hgt
    · simp [hlt, Int.le_of_lt hlt]
    · simp
    · simp [Int.not_lt.mpr (Int.le_of_lt hgt), Int.ne_of_gt hgt, Int.not_le.mpr hgt]
  | cons u a ih =>
    cases b with
    | nil => cases h
    | cons v b =>
      have hlen : a.length = b.length := Nat.succ.inj h
      simp only [List.cons_append, keysLe, ih hlen]
      rcases Int.lt_trichotomy u v with hlt | rfl | hgt
      · simp [hlt, Int.ne_of_gt hlt, Int.not_lt.mpr (Int.le_of_lt hlt)]
      · simp
      · simp [Int.not_lt.mpr (Int.le_of_lt hgt), Int.ne_of_gt hgt]

/-- The preorder of the sort keys. -/
def byKeys (keys : ExpenseReport → List Int) (x y : ExpenseReport) : Bool :=
  keysLe (keys x) (keys y)

theorem totalPreorder_byKeys {keys : ExpenseReport → List Int} : TotalPreorder (byKeys keys) where
  total x y := keysLe_total (keys x) (keys y)
  trans _ _ _ := keysLe_trans

/-- `ORDER BY` arranges the rows, and breaks ties by rank. -/
theorem arranges_orderBy {keys : ExpenseReport → List Int} {rank : UUID → Nat}
    (hlen : ∀ x y, (keys x).length = (keys y).length) {rows : List ExpenseReport} :
    Arranges (byRank (byKeys keys) fun r => rank r.reportID)
      (orderBy (fun r => keys r ++ asc (rank r.reportID)) rows) rows := by
  refine ⟨List.perm_insertionSort _ _, ?_⟩
  have htotal : Std.Total fun x y : ExpenseReport =>
      keysLe (keys x ++ asc (rank x.reportID)) (keys y ++ asc (rank y.reportID)) = true :=
    ⟨fun x y => keysLe_total _ _⟩
  have htrans : IsTrans ExpenseReport fun x y =>
      keysLe (keys x ++ asc (rank x.reportID)) (keys y ++ asc (rank y.reportID)) = true :=
    ⟨fun _ _ _ => keysLe_trans⟩
  refine (List.pairwise_insertionSort _ rows).imp fun {x y} h => ?_
  rw [keysLe_append (hlen x y)] at h
  simpa [byRank, byKeys] using h

/-! ## The lists -/

/-- One of the five paged lists, with its filter. -/
inductive Listing where
  | myReports (filter : ReportListParams)
  | allReports (filter : ReportListParams)
  | pendingReports (filter : WorkflowListParams)
  | payableReports (filter : WorkflowListParams)
  | processedReports (filter : WorkflowListParams)

/-- Surroundings in which the database lowers text by `lower`. -/
def lowering (lower : Char → Char) : Oracle where
  now := 0
  today := default
  uuid := 0
  rank _ := 0
  lower := lower
  random := ""
  salt := 0
  failure := none

/-- Text the database can read: valid UTF-8, without a zero byte. -/
def readableText (s : Go.Str) : Bool :=
  (Go.decode s).any fun t => t.toList.all fun c => c.toNat ≠ 0

theorem readableText_iff {s : Go.Str} : readableText s = true ↔
    ∃ t, s = Go.lit t ∧ ∀ c ∈ t.toList, c.toNat ≠ 0 := by
  unfold readableText
  simp [Option.any_eq_true, Go.decode_eq_some]

namespace Listing

/-- The request for one page. -/
def request (page perPage : Int) : Listing → Endpoint
  | .myReports f => .listMyReports { f with page := page, perPage := perPage }
  | .allReports f => .listAllReports { f with page := page, perPage := perPage, userID := none }
  | .pendingReports f => .listPendingReports { f with page := page, perPage := perPage }
  | .payableReports f => .listPayableReports { f with page := page, perPage := perPage }
  | .processedReports f => .listProcessedReports { f with page := page, perPage := perPage }

/-- The `WHERE` of the list and of its count. -/
def selects (actor : Actor) (lower : Char → Char) (d : Database) : Listing → ExpenseReport → Bool
  | .myReports f => ListReportsParams.selects ⟨actor.tenantID, 0, 0, f.status, f.fromDate, f.toDate,
      some actor.userID⟩
  | .allReports f => ListReportsParams.selects ⟨actor.tenantID, 0, 0, f.status, f.fromDate, f.toDate,
      f.submitterID⟩
  | .pendingReports f => ListWorkflowParams.selects ⟨actor.tenantID, 0, 0, f.applicantName⟩
      .submitted d (lowering lower)
  | .payableReports f => ListWorkflowParams.selects ⟨actor.tenantID, 0, 0, f.applicantName⟩
      .approved d (lowering lower)
  | .processedReports _ => ListProcessedReportsParams.selects ⟨actor.tenantID, actor.userID, 0, 0⟩

/-- The `ORDER BY`. -/
def keys : Listing → ExpenseReport → List Int
  | .myReports _, r => desc r.createdAt
  | .allReports _, r => allReportsKeys r
  | .pendingReports _, r => descNullsFirst r.submittedAt
  | .payableReports _, r => descNullsFirst r.approvedAt
  | .processedReports _, r => processedKeys r

/-- The filter is text the database can read. -/
def readable : Listing → Bool
  | .pendingReports f => f.applicantName.all readableText
  | .payableReports f => f.applicantName.all readableText
  | _ => true

/-- The reports of the list. -/
def rows (L : Listing) (actor : Actor) (lower : Char → Char) (d : Database) : List ExpenseReport :=
  reportRows.filter (L.selects actor lower d) d

/-- The list as one query arranges it. -/
def arranged (L : Listing) (actor : Actor) (lower : Char → Char) (d : Database) (rank : UUID → Nat) :
    List ExpenseReport :=
  orderBy (fun r => L.keys r ++ asc (rank r.reportID)) (L.rows actor lower d)

variable {L : Listing} {actor : Actor} {lower : Char → Char} {d : Database} {rank : UUID → Nat}

theorem length_keys (x y : ExpenseReport) : (L.keys x).length = (L.keys y).length := by
  have hfirst : ∀ t : Option Timestamp, (descNullsFirst t).length = 2 := by
    intro t
    cases t <;> rfl
  have hlast : ∀ t : Option Timestamp, (descNullsLast t).length = 2 := by
    intro t
    cases t <;> rfl
  cases L with
  | myReports f => rfl
  | allReports f => simp [keys, allReportsKeys, hlast, desc]
  | pendingReports f | payableReports f => simp [keys, hfirst]
  | processedReports f => simp [keys, processedKeys, hfirst, desc]

theorem arranges_arranged : Arranges (byRank (byKeys L.keys) fun r => rank r.reportID)
    (L.arranged actor lower d rank) (L.rows actor lower d) :=
  arranges_orderBy length_keys

theorem nodup_rows : (L.rows actor lower d).Nodup := nodup_reports.filter _

end Listing

/-! ## One page -/

theorem limitOf_eq_self {k : Nat} (hk : 1 ≤ k) (hk' : k ≤ 100) : limitOf k = k := by
  have h₁ : ¬ (k : Int) ≤ 0 := by omega
  have h₂ : ¬ (k : Int) > 100 := by omega
  simp only [limitOf, if_neg h₁, if_neg h₂]

theorem int32_limit {k : Nat} (hk : 1 ≤ k) (hk' : k ≤ 100) : int32 (limitOf k) = k := by
  rw [limitOf_eq_self hk hk', int32_eq_self (by omega)]
  omega

theorem offsetOf_page {k : Nat} (hk : 1 ≤ k) (hk' : k ≤ 100) (i : Nat) :
    offsetOf (i + 1) k = int32 (i * k) := by
  have h : ¬ (i : Int) + 1 ≤ 0 := by omega
  simp only [offsetOf, if_neg h, limitOf_eq_self hk hk', Int.add_sub_cancel]

theorem patternParam_eq_ok {p : ListWorkflowParams} :
    patternParam p = .ok () ↔ p.applicantName.all readableText = true := by
  unfold patternParam
  cases p.applicantName with
  | none => simp
  | some s =>
    rw [Option.all_some, readableText_iff, Except.bind_eq_ok]
    refine exists_congr fun t => and_congr utf8_eq_ok ?_
    simp [text_eq_ok]

/-- The `WHERE` of a work list looks at nothing of its surroundings but how text is lowered. -/
theorem selects_lowering {p : ListWorkflowParams} {status : ReportStatus} {d : Database} {o : Oracle} :
    p.selects status d o = p.selects status d (lowering o.lower) := rfl

section

variable {env : Nat → Oracle} {db d : Database} {clock : Oracle} {n : Nat} {s s₁ s₂ s' : Solo server}
  {α β : Type} {a : α} {b : β} {P : α → Prop} {Q : β → Prop}

/-- One answer after the other. -/
theorem gives_pair {x : Service α} {y : Service β} (hx : ∀ a s', GivesAlone env x s a s' ↔ P a ∧ s' = s₁)
    (hy : ∀ b s', GivesAlone env y s₁ b s' ↔ Q b ∧ s' = s₂) :
    GivesAlone env (do let a ← x; let b ← y; pure (a, b)) s (a, b) s' ↔ P a ∧ Q b ∧ s' = s₂ := by
  refine gives_bind.trans ?_
  constructor
  · rintro ⟨a', t, ha, h⟩
    obtain ⟨hP, rfl⟩ := (hx _ _).mp ha
    obtain ⟨b', t', hb, h⟩ := gives_bind.mp h
    obtain ⟨hQ, rfl⟩ := (hy _ _).mp hb
    obtain ⟨hab, rfl⟩ := gives_pure.mp h
    cases hab
    exact ⟨hP, hQ, rfl⟩
  · rintro ⟨hP, hQ, rfl⟩
    exact ⟨a, s₁, (hx _ _).mpr ⟨hP, rfl⟩, gives_bind.mpr ⟨b, s', (hy _ _).mpr ⟨hQ, rfl⟩,
      gives_pure.mpr ⟨rfl, rfl⟩⟩⟩

variable (env) in
/-- A name is looked up, and found or not. -/
theorem exists_gives_nameOf (u : UUID) : ∃ o s', GivesAlone env (nameOf u) s o s' := by
  cases h : Solo.run env (UserRepo.getByID .tx u).run s with
  | mk r s₁ =>
    have hattempt : GivesAlone env (Svc.attempt (UserRepo.getByID .tx u)) s r s₁ := gives_attempt.mpr h
    cases r with
    | ok user =>
      exact ⟨some user.toSummary, s₁, gives_bind.mpr ⟨_, _, hattempt, gives_pure.mpr ⟨rfl, rfl⟩⟩⟩
    | error e => exact ⟨none, s₁, gives_bind.mpr ⟨_, _, hattempt, gives_pure.mpr ⟨rfl, rfl⟩⟩⟩

variable (env) in
theorem exists_gives_fill (cache : UserCache) (u : UUID) :
    ∃ cache' s', GivesAlone env (cache.fill u) s cache' s' := by
  unfold UserCache.fill
  split
  · exact ⟨cache, s, gives_pure.mpr ⟨rfl, rfl⟩⟩
  · obtain ⟨o, s₁, ho⟩ := exists_gives_nameOf env (s := s) u
    cases o with
    | some x => exact ⟨_, s₁, gives_bind.mpr ⟨_, _, ho, gives_pure.mpr ⟨rfl, rfl⟩⟩⟩
    | none => exact ⟨_, s₁, gives_bind.mpr ⟨_, _, ho, gives_pure.mpr ⟨rfl, rfl⟩⟩⟩

variable (env) in
/-- **Names are no obstacle**: there is an entry for each report, in the same order. -/
theorem exists_gives_withSubmitters {γ : Type} {make : ExpenseReport → Option UserSummary → β} {g : β → γ}
    {f : ExpenseReport → γ} (hmake : ∀ r u, g (make r u) = f r) (rows : List ExpenseReport) (cache : UserCache) :
    ∃ l s', GivesAlone env (withSubmitters make cache rows) s l s' ∧ l.map g = rows.map f := by
  induction rows generalizing cache s with
  | nil => exact ⟨[], s, gives_pure.mpr ⟨rfl, rfl⟩, rfl⟩
  | cons r rows ih =>
    obtain ⟨cache', s₁, hfill⟩ := exists_gives_fill env (s := s) cache r.userID
    obtain ⟨l, s₂, hl, hmap⟩ := ih (s := s₁) cache'
    refine ⟨_, s₂, gives_bind.mpr ⟨_, _, hfill, gives_bind.mpr ⟨_, _, hl, gives_pure.mpr ⟨rfl, rfl⟩⟩⟩, ?_⟩
    rw [List.map_cons, List.map_cons, hmake, hmap]

end

/-- The repository method behind the list. -/
def Listing.fetch (actor : Actor) (page perPage : Int) : Listing → Service (List ExpenseReport × Int)
  | .myReports f => ReportRepo.list actor.tenantID
      { f with page := page, perPage := perPage, userID := some actor.userID }
  | .allReports f => ReportRepo.list actor.tenantID
      { f with page := page, perPage := perPage, userID := none }
  | .pendingReports f => ReportRepo.listPending actor.tenantID { f with page := page, perPage := perPage }
  | .payableReports f => ReportRepo.listPayable actor.tenantID { f with page := page, perPage := perPage }
  | .processedReports f => ReportRepo.listProcessed actor.tenantID actor.userID
      { f with page := page, perPage := perPage }

/-- What the two queries for page `i`, counted from zero, answer. -/
structure Listing.Answers (L : Listing) (actor : Actor) (lower : Char → Char) (d : Database)
    (rank : UUID → Nat) (k i : Nat) (rows : List ExpenseReport) (total : Int) : Prop where
  readable : L.readable = true
  page : Sql.page k (int32 (i * k)) (L.arranged actor lower d rank) = .ok rows
  count : Sql.count (L.rows actor lower d) = .ok total

section

variable {env : Nat → Oracle} {d : Database} {s' : Solo server} {L : Listing} {actor : Actor}
  {lower : Char → Char} {k i : Nat} {rows : List ExpenseReport} {total : Int}

/-- Limit and offset, as the repositories compute them. -/
theorem pageOf_eq (hk : 1 ≤ k) (hk' : k ≤ 100) {o : Oracle} :
    pageOf (int32 (limitOf k)) (offsetOf (i + 1) k) L.keys o (L.rows actor lower d) =
      Sql.page k (int32 (i * k)) (L.arranged actor lower d o.rank) := by
  rw [int32_limit hk hk', offsetOf_page hk hk']
  rfl

theorem gives_fetch (hk : 1 ≤ k) (hk' : k ≤ 100) (hlower : ∀ n, (env n).lower = lower) :
    GivesAlone env (L.fetch actor (i + 1) k) (handling env d) (rows, total) s' ↔
      L.Answers actor lower d (env 2).rank k i rows total ∧ s' = .inside d (env 0) d 4 := by
  have hpage : pageOf (int32 (limitOf k)) (offsetOf (i + 1) k) L.keys (env 2)
      (L.rows actor lower d) = Sql.page k (int32 (i * k)) (L.arranged actor lower d (env 2).rank) :=
    pageOf_eq hk hk'
  -- The two kinds of query: with a pattern that may be refused, and without.
  have hplain : L.readable = true → (pageOf (int32 (limitOf k)) (offsetOf (i + 1) k) L.keys (env 2)
      (L.rows actor lower d) = .ok rows ∧ Sql.count (L.rows actor lower d) = .ok total ∧
        s' = .inside d (env 0) d 4 ↔
      L.Answers actor lower d (env 2).rank k i rows total ∧ s' = .inside d (env 0) d 4) := by
    intro hread
    rw [hpage]
    constructor
    · rintro ⟨hp, hc, hs⟩
      exact ⟨⟨hread, hp, hc⟩, hs⟩
    · rintro ⟨h, hs⟩
      exact ⟨h.page, h.count, hs⟩
  have hpattern : ∀ {p : ListWorkflowParams} (status : ReportStatus),
      (∀ n, reportRows.filter (p.selects status d (env n)) d = L.rows actor lower d) →
      (patternParam p = .ok () ↔ L.readable = true) →
      ((do
          patternParam p
          pageOf (int32 (limitOf k)) (offsetOf (i + 1) k) L.keys (env 2)
            (reportRows.filter (p.selects status d (env 2)) d)) = .ok rows ∧
        (do
          patternParam p
          Sql.count (reportRows.filter (p.selects status d (env 3)) d)) = .ok total ∧
        s' = .inside d (env 0) d 4 ↔
      L.Answers actor lower d (env 2).rank k i rows total ∧ s' = .inside d (env 0) d 4) := by
    intro p status hrows hread
    rw [hrows, hrows, hpage]
    constructor
    · rintro ⟨hp, hc, hs⟩
      obtain ⟨u, hu, hp⟩ := Except.bind_eq_ok.mp hp
      obtain ⟨_, _, hc⟩ := Except.bind_eq_ok.mp hc
      exact ⟨⟨hread.mp hu, hp, hc⟩, hs⟩
    · rintro ⟨h, hs⟩
      have hu := hread.mpr h.readable
      exact ⟨Except.bind_eq_ok.mpr ⟨(), hu, h.page⟩, Except.bind_eq_ok.mpr ⟨(), hu, h.count⟩, hs⟩
  cases L with
  | myReports f =>
    exact gives_errorf.trans ((gives_pair (fun _ _ => gives_query rfl) fun _ _ => gives_query rfl).trans
      (hplain rfl))
  | allReports f =>
    exact gives_errorf.trans ((gives_pair (fun _ _ => gives_query rfl) fun _ _ => gives_query rfl).trans
      (hplain rfl))
  | processedReports f =>
    exact (gives_pair (fun _ _ => gives_errorf.trans (gives_query rfl))
      fun _ _ => gives_errorf.trans (gives_query rfl)).trans (hplain rfl)
  | pendingReports f =>
    refine (gives_pair (fun _ _ => gives_errorf.trans (gives_query rfl))
      fun _ _ => gives_errorf.trans (gives_query rfl)).trans
        (hpattern .submitted (fun n => ?_) patternParam_eq_ok)
    rw [selects_lowering, hlower]
    rfl
  | payableReports f =>
    refine (gives_pair (fun _ _ => gives_errorf.trans (gives_query rfl))
      fun _ _ => gives_errorf.trans (gives_query rfl)).trans
        (hpattern .approved (fun n => ?_) patternParam_eq_ok)
    rw [selects_lowering, hlower]
    rfl

/-- The page of a list that a response shows. -/
def Payload.listed : Payload → Option (List UUID × Pagination)
  | .summaries l p => some (l.map ExpenseReportSummary.id, p)
  | .pending l p => some (l.map PendingReport.id, p)
  | .payable l p => some (l.map PayableReport.id, p)
  | .processed l p => some (l.map ProcessedReport.id, p)
  | _ => none

/-- A list service: the rows and their number, then an entry for each row. -/
def listService {β : Type} (mk : List β → Pagination → Payload) (context : String)
    (fetch : Service (List ExpenseReport × Int)) (post : List ExpenseReport → Service (List β))
    (page perPage : Int) : Service Payload :=
  (fun r => mk r.1 r.2) <$> (do
    let (rows, total) ← errorf context fetch
    let entries ← post rows
    pure (entries, buildPagination total page perPage) : Service (List β × Pagination))

theorem gives_listService {β : Type} (mk : List β → Pagination → Payload) (context : String)
    {post : List ExpenseReport → Service (List β)} {P : List β → Prop}
    (hk : 1 ≤ k) (hk' : k ≤ 100) (hlower : ∀ n, (env n).lower = lower)
    (hpost : ∃ l n', GivesAlone env (post rows) (.inside d (env 0) d 4) l (.inside d (env 0) d n') ∧ P l)
    (h : L.Answers actor lower d (env 2).rank k i rows total) :
    ∃ l n', GivesAlone env (listService mk context (L.fetch actor (i + 1) k) post (i + 1) k)
      (handling env d) (mk l (buildPagination total (i + 1) k)) (.inside d (env 0) d n') ∧ P l := by
  obtain ⟨l, n', hl, hP⟩ := hpost
  refine ⟨l, n', gives_map.mpr ⟨(l, buildPagination total (i + 1) k), ?_, rfl⟩, hP⟩
  refine gives_bind.mpr ⟨(rows, total), .inside d (env 0) d 4, ?_, ?_⟩
  · exact gives_errorf.mpr ((gives_fetch hk hk' hlower).mpr ⟨h, rfl⟩)
  · exact gives_bind.mpr ⟨l, _, hl, gives_pure.mpr ⟨rfl, rfl⟩⟩

theorem answers_of_listService {β : Type} {mk : List β → Pagination → Payload} {context : String}
    {post : List ExpenseReport → Service (List β)} {p : Payload}
    (hk : 1 ≤ k) (hk' : k ≤ 100) (hlower : ∀ n, (env n).lower = lower)
    (h : GivesAlone env (listService mk context (L.fetch actor (i + 1) k) post (i + 1) k)
      (handling env d) p s') :
    ∃ rows total, L.Answers actor lower d (env 2).rank k i rows total := by
  obtain ⟨_, h, _⟩ := gives_map.mp h
  obtain ⟨⟨rows, total⟩, _, h, _⟩ := gives_bind.mp h
  exact ⟨rows, total, ((gives_fetch hk hk' hlower).mp (gives_errorf.mp h)).1⟩

/-- Names are looked up for the rows of a page, and nothing else happens. -/
theorem gives_names {β γ : Type} {make : ExpenseReport → Option UserSummary → β} {g : β → γ}
    {f : ExpenseReport → γ} (hmake : ∀ r u, g (make r u) = f r) (rows : List ExpenseReport) :
    ∃ l n', GivesAlone env (withSubmitters make [] rows) (.inside d (env 0) d 4) l (.inside d (env 0) d n') ∧
      l.map g = rows.map f := by
  obtain ⟨l, s', hl, hmap⟩ := exists_gives_withSubmitters env (s := .inside d (env 0) d 4) hmake rows []
  obtain ⟨n', rfl⟩ := inside_of_looks (t := 0) (looks_withSubmitters _) hl
  exact ⟨l, n', hl, hmap⟩

variable (actor) in
/-- Each of the five endpoints is such a service. -/
theorem service_request (hk : 1 ≤ k) (hk' : k ≤ 100) : ∃ (β : Type) (mk : List β → Pagination → Payload)
    (context : String) (post : List ExpenseReport → Service (List β)) (ids : List β → List UUID),
    (L.request (i + 1) k).service actor =
      listService mk context (L.fetch actor (i + 1) k) post (i + 1) k ∧
    (∀ l pg, (mk l pg).listed = some (ids l, pg)) ∧
    ∀ env rows, ∃ l n', GivesAlone env (post rows) (.inside d (env 0) d 4) l (.inside d (env 0) d n') ∧
      ids l = rows.map ExpenseReport.reportID := by
  cases L with
  | myReports f =>
    refine ⟨_, .summaries, _, fun rows => pure (rows.map ExpenseReport.toSummary),
      List.map ExpenseReportSummary.id, rfl, fun _ _ => rfl, fun env rows => ?_⟩
    refine ⟨_, 4, gives_pure.mpr ⟨rfl, rfl⟩, ?_⟩
    rw [List.map_map]
    rfl
  | allReports f =>
    refine ⟨_, .summaries, "reportService.ListAllReports",
      withSubmitters (fun r u => { r.toSummary with submitter := u }) [],
      List.map ExpenseReportSummary.id, ?_, fun _ _ => rfl, fun _ => gives_names fun _ _ => rfl⟩
    have hpage : ¬ (i : Int) + 1 ≤ 0 := by omega
    simp only [Listing.request, Endpoint.service, ReportService.listAllReports, limitOf_eq_self hk hk',
      if_neg hpage]
    rfl
  | pendingReports f =>
    exact ⟨_, .pending, _, _, List.map PendingReport.id, rfl, fun _ _ => rfl, fun _ => gives_names fun _ _ => rfl⟩
  | payableReports f =>
    exact ⟨_, .payable, _, _, List.map PayableReport.id, rfl, fun _ _ => rfl, fun _ => gives_names fun _ _ => rfl⟩
  | processedReports f =>
    exact ⟨_, .processed, _, _, List.map ProcessedReport.id, rfl, fun _ _ => rfl,
      fun _ => gives_names fun _ _ => rfl⟩

/-- `totalPages`. -/
def pageCount (N k : Nat) : Nat := if (N + k - 1) / k = 0 then 1 else (N + k - 1) / k

theorem buildPagination_eq {N : Nat} (hk : 1 ≤ k) :
    buildPagination N (i + 1) k = ⟨i + 1, k, N, pageCount N k⟩ := by
  have hpage : ¬ (i : Int) + 1 ≤ 0 := by omega
  have hper : ¬ (k : Int) ≤ 0 := by omega
  have hpages : ((N : Int) + k - 1).tdiv k = (((N + k - 1) / k : Nat) : Int) := by
    have hsum : (N : Int) + k - 1 = ((N + k - 1 : Nat) : Int) := by omega
    rw [hsum, Int.ofNat_tdiv]
  simp only [buildPagination, if_neg hpage, if_neg hper, hpages, pageCount, Int.natCast_eq_zero]
  split <;> rfl

/-- There is a page, the pages hold all rows, and the one before the last is full. -/
theorem pageCount_spec {N : Nat} (hk : 1 ≤ k) :
    0 < pageCount N k ∧ N ≤ pageCount N k * k ∧ (pageCount N k - 1) * k ≤ N := by
  have hdiv := Nat.div_add_mod (N + k - 1) k
  have hmod := Nat.mod_lt (N + k - 1) hk
  rw [Nat.mul_comm] at hdiv
  unfold pageCount
  generalize (N + k - 1) / k = q at hdiv
  split
  · rename_i hzero
    rw [hzero] at hdiv
    omega
  · rename_i hpos
    rw [Nat.sub_mul]
    omega

theorem length_arranged {rank : UUID → Nat} :
    (L.arranged actor lower d rank).length = (L.rows actor lower d).length :=
  (Listing.arranges_arranged).perm.length_eq

/-- The roles the list is for. -/
def Listing.roles (L : Listing) : List Role := (L.request 1 20).roles

theorem roles_request {page perPage : Int} : (L.request page perPage).roles = L.roles := by
  cases L <;> rfl

/-- A request is answered with what its queries answer. -/
theorem serve_of_answers (hrole : actor.role ∈ L.roles) (hk : 1 ≤ k) (hk' : k ≤ 100)
    (hlower : ∀ n, (env n).lower = lower) (h : L.Answers actor lower d (env 2).rank k i rows total) :
    ∃ p, server.serve env (.tenant actor (L.request (i + 1) k)) d = (.ok p, d) ∧
      p.listed = some (rows.map ExpenseReport.reportID, buildPagination total (i + 1) k) := by
  obtain ⟨β, mk, context, post, ids, hservice, hlisted, hpost⟩ :=
    service_request actor (d := d) (L := L) (i := i) hk hk'
  obtain ⟨l, n', hgives, hids⟩ := gives_listService mk context hk hk' hlower (hpost env _) h
  refine ⟨_, serve_tenant.mpr ⟨roles_request ▸ hrole, _, hservice ▸ hgives, rfl⟩, ?_⟩
  rw [hlisted, hids]

/-- And only so. -/
theorem answers_of_serve {p : Payload} {d' : Database} (hk : 1 ≤ k) (hk' : k ≤ 100)
    (hlower : ∀ n, (env n).lower = lower)
    (h : server.serve env (.tenant actor (L.request (i + 1) k)) d = (.ok p, d')) :
    ∃ rows total, L.Answers actor lower d (env 2).rank k i rows total ∧
      p.listed = some (rows.map ExpenseReport.reportID, buildPagination total (i + 1) k) := by
  obtain ⟨β, mk, context, post, ids, hservice, _⟩ :=
    service_request actor (d := d) (L := L) (i := i) hk hk'
  obtain ⟨hrole, s', hgives, _⟩ := serve_tenant.mp h
  rw [hservice] at hgives
  obtain ⟨rows, total, hanswers⟩ := answers_of_listService hk hk' hlower hgives
  obtain ⟨p', hp', hlisted⟩ := serve_of_answers (roles_request ▸ hrole) hk hk' hlower hanswers
  cases h.symm.trans hp'
  exact ⟨rows, total, hanswers, hlisted⟩

/-- A page whose offset fits is cut where it should be. -/
theorem page_of_small {α : Type} {l : List α} (hi : i * k < 2 ^ 31) :
    Sql.page k (int32 (i * k)) l = .ok (slice k i l) := by
  have hoffset : int32 ((i : Int) * k) = ((i * k : Nat) : Int) := by
    rw [← Int.natCast_mul, int32_eq_self (by omega)]
    omega
  rw [hoffset]
  unfold Sql.page slice
  rw [if_neg (by omega)]
  rfl

theorem answers_of_small {rank : UUID → Nat} (hread : L.readable = true)
    (hcount : (L.rows actor lower d).length < 2 ^ 31) (hi : i * k < 2 ^ 31) :
    L.Answers actor lower d rank k i (slice k i (L.arranged actor lower d rank))
      (L.rows actor lower d).length :=
  ⟨hread, page_of_small hi, count_eq_ok.mpr ⟨hcount, rfl⟩⟩

/-- **What a request for a page answers.** -/
theorem serve_listing (hrole : actor.role ∈ L.roles) (hk : 1 ≤ k) (hk' : k ≤ 100)
    (hlower : ∀ n, (env n).lower = lower) (hread : L.readable = true)
    (hcount : (L.rows actor lower d).length < 2 ^ 31) (hi : i * k < 2 ^ 31) :
    ∃ p, server.serve env (.tenant actor (L.request (i + 1) k)) d = (.ok p, d) ∧
      p.listed = some ((slice k i (L.arranged actor lower d (env 2).rank)).map ExpenseReport.reportID,
        ⟨i + 1, k, (L.rows actor lower d).length, pageCount (L.rows actor lower d).length k⟩) := by
  obtain ⟨p, hp, hlisted⟩ := serve_of_answers hrole hk hk' hlower (answers_of_small hread hcount hi)
  refine ⟨p, hp, ?_⟩
  rw [hlisted, buildPagination_eq hk]

/-- A request that is answered has a filter the database can read, and counts no more than fits. -/
theorem small_of_serve {p : Payload} {d' : Database} (hk : 1 ≤ k) (hk' : k ≤ 100)
    (hlower : ∀ n, (env n).lower = lower)
    (h : server.serve env (.tenant actor (L.request (i + 1) k)) d = (.ok p, d')) :
    L.readable = true ∧ (L.rows actor lower d).length < 2 ^ 31 := by
  obtain ⟨rows, total, hanswers, _⟩ := answers_of_serve hk hk' hlower h
  exact ⟨hanswers.readable, (count_eq_ok.mp hanswers.count).1⟩

end

/-! ## All pages -/

/-- `T` pages that are the list together: every report once, every page but the last full. -/
structure Partition (env : Nat → Nat → Oracle) (lower : Char → Char) (L : Listing) (actor : Actor)
    (k : Nat) (d : Database) (T : Nat) (pages : Nat → List UUID) : Prop where
  pos : 0 < T
  /-- Every page is answered, with the number of reports and of pages. -/
  answered : ∀ i < T, ∃ p d', server.serve (env i) (.tenant actor (L.request (i + 1) k)) d = (.ok p, d') ∧
    p.listed = some (pages i, ⟨i + 1, k, (L.rows actor lower d).length, T⟩)
  exact : ((List.range T).flatMap pages).Perm ((L.rows actor lower d).map ExpenseReport.reportID)
  full : ∀ i, i + 1 < T → (pages i).length = k

section

variable {d : Database} {L : Listing} {actor : Actor} {lower : Char → Char} {k : Nat}
  {env : Nat → Nat → Oracle}

/-- With settled edges the pages are the list, however ties are broken. -/
theorem partition_of_settled (hrole : actor.role ∈ L.roles) (hk : 1 ≤ k) (hk' : k ≤ 100)
    (hlower : ∀ i n, (env i n).lower = lower) (hread : L.readable = true)
    (hcount : (L.rows actor lower d).length < 2 ^ 31)
    (hedge : ∀ i, ¬ Astride (byKeys L.keys) (L.rows actor lower d) (i * k)) :
    Partition env lower L actor k d (pageCount (L.rows actor lower d).length k)
      fun i => (slice k i (L.arranged actor lower d (env i 2).rank)).map ExpenseReport.reportID := by
  obtain ⟨hpos, hall, hlast⟩ := pageCount_spec (N := (L.rows actor lower d).length) hk
  have hstart : ∀ i < pageCount (L.rows actor lower d).length k,
      i * k ≤ (L.rows actor lower d).length := by
    intro i hi
    exact Nat.le_trans (Nat.mul_le_mul_right k (Nat.le_sub_one_of_lt hi)) hlast
  refine ⟨hpos, fun i hi => ?_, ?_, fun i hi => ?_⟩
  · obtain ⟨p, hp, hlisted⟩ := serve_listing hrole hk hk' (hlower i) hread hcount
      (Nat.lt_of_le_of_lt (hstart i hi) hcount)
    exact ⟨p, d, hp, hlisted⟩
  · rw [← List.map_flatMap]
    exact (pages_perm totalPreorder_byKeys
      (fun i _ => arranges_of_byRank Listing.arranges_arranged) hall hedge).map _
  · rw [List.length_map]
    refine length_slice ?_
    rw [length_arranged]
    exact hstart (i + 1) hi

/-- Surroundings that put report `x` first among those it ties with up to page `e`, and last from there on. -/
def wavering (lower : Char → Char) (x : UUID) (e i _n : Nat) : Oracle :=
  { lowering lower with rank := fun k => if k = x ↔ i < e then 0 else 1 }

/-- **What pages are that are all answered**: the slices of the list as each query arranges it. -/
theorem slices_of_answered {N T : Nat} {pages : Nat → List UUID} (hrole : actor.role ∈ L.roles) (hk : 1 ≤ k)
    (hk' : k ≤ 100) (hlower : ∀ i n, (env i n).lower = lower) (hread : L.readable = true)
    (hcount : (L.rows actor lower d).length < 2 ^ 31) (hpos : 0 < T)
    (h : ∀ i < T, ∃ p d', server.serve (env i) (.tenant actor (L.request (i + 1) k)) d = (.ok p, d') ∧
      p.listed = some (pages i, ⟨i + 1, k, N, T⟩)) :
    N = (L.rows actor lower d).length ∧ T = pageCount (L.rows actor lower d).length k ∧
      ∀ i < T, pages i = (slice k i (L.arranged actor lower d (env i 2).rank)).map ExpenseReport.reportID := by
  have hslice : ∀ i < T, i * k < 2 ^ 31 → N = (L.rows actor lower d).length ∧
      T = pageCount (L.rows actor lower d).length k ∧
      pages i = (slice k i (L.arranged actor lower d (env i 2).rank)).map ExpenseReport.reportID := by
    intro i hi hsmall
    obtain ⟨p, d', hp, hlisted⟩ := h i hi
    obtain ⟨p', hp', hlisted'⟩ := serve_listing (L := L) hrole hk hk' (hlower i) hread hcount hsmall
    cases hp.symm.trans hp'
    rw [hlisted, Option.some.injEq, Prod.mk.injEq, Pagination.mk.injEq] at hlisted'
    obtain ⟨hpages, _, _, hN, hT⟩ := hlisted'
    exact ⟨Int.ofNat.inj hN, Int.ofNat.inj hT, hpages⟩
  obtain ⟨_, _, hlast⟩ := pageCount_spec (N := (L.rows actor lower d).length) hk
  obtain ⟨hN, hT, _⟩ := hslice 0 hpos (by omega)
  refine ⟨hN, hT, fun i hi => ?_⟩
  have hstart := Nat.mul_le_mul_right k (Nat.le_sub_one_of_lt (hT ▸ hi))
  exact (hslice i hi (by omega)).2.2

/-- If no report is on two pages, then no tie reaches across an edge, or the database could break it both ways. -/
theorem not_astride_of_once {N : Nat} (hrole : actor.role ∈ L.roles) (hk : 1 ≤ k) (hk' : k ≤ 100)
    (hread : L.readable = true) (hcount : (L.rows actor lower d).length < 2 ^ 31)
    (h : ∀ env : Nat → Nat → Oracle, (∀ i n, (env i n).lower = lower) → ∃ (T : Nat) (pages : Nat → List UUID),
      0 < T ∧ (∀ i < T, ∃ p d', server.serve (env i) (.tenant actor (L.request (i + 1) k)) d = (.ok p, d') ∧
        p.listed = some (pages i, ⟨i + 1, k, N, T⟩)) ∧ ((List.range T).flatMap pages).Nodup) (e : Nat) :
    ¬ Astride (byKeys L.keys) (L.rows actor lower d) (e * k) := by
  rintro ⟨x, hx, hbefore, hupTo⟩
  have hlower : ∀ i n, (wavering lower x.reportID e i n).lower = lower := fun _ _ => rfl
  obtain ⟨T, pages, hpos, hanswered, hnodup⟩ := h _ hlower
  obtain ⟨_, hT, hpages⟩ := slices_of_answered hrole hk hk' hlower hread hcount hpos hanswered
  obtain ⟨_, hall, _⟩ := pageCount_spec (N := (L.rows actor lower d).length) hk
  have honce : ((List.range T).flatMap fun i => slice k i (L.arranged actor lower d
      (wavering lower x.reportID e i 2).rank)).Nodup := by
    refine List.Nodup.of_map ExpenseReport.reportID ?_
    rwa [List.map_flatMap, ← List.flatMap_congr fun i hi => hpages i (List.mem_range.mp hi)]
  have hne : ∀ y ∈ L.rows actor lower d, y ≠ x → y.reportID ≠ x.reportID := by
    intro y hy hyx hid
    exact hyx (List.inj_on_of_nodup_map d.reports.nodup (List.mem_of_mem_filter hy)
      (List.mem_of_mem_filter hx) hid)
  refine twice_of_astride (fun i r => (wavering lower x.reportID e i 2).rank r.reportID)
    totalPreorder_byKeys Listing.nodup_rows hk (hT ▸ hall) (fun _ _ => Listing.arranges_arranged) hx
    hbefore hupTo (fun i hi y hy hyx => ?_) (fun i hi y hy hyx => ?_) honce
  · simp [wavering, hi, hne y hy hyx]
  · simp [wavering, Nat.not_lt.mpr hi, hne y hy hyx]

/-- And if the pages are always the list, none is. -/
theorem not_astride_of_partition (hrole : actor.role ∈ L.roles) (hk : 1 ≤ k) (hk' : k ≤ 100)
    (hread : L.readable = true) (hcount : (L.rows actor lower d).length < 2 ^ 31)
    (h : ∀ env : Nat → Nat → Oracle, (∀ i n, (env i n).lower = lower) →
      ∃ T pages, Partition env lower L actor k d T pages) (e : Nat) :
    ¬ Astride (byKeys L.keys) (L.rows actor lower d) (e * k) := by
  refine not_astride_of_once (N := (L.rows actor lower d).length) hrole hk hk' hread hcount
    (fun env hlower => ?_) e
  obtain ⟨T, pages, hpart⟩ := h env hlower
  refine ⟨T, pages, hpart.pos, hpart.answered, hpart.exact.nodup_iff.mpr ?_⟩
  exact d.reports.nodup.sublist (List.filter_sublist.map _)

/--
**The pages are the list, however ties are broken, if and only if no tie reaches
across an edge**: no report can stand on either side of it. The filter has to be
text, and the count to fit.
-/
theorem partitioned_iff (hrole : actor.role ∈ L.roles) (hk : 1 ≤ k) (hk' : k ≤ 100) :
    (∀ env : Nat → Nat → Oracle, (∀ i n, (env i n).lower = lower) →
      ∃ T pages, Partition env lower L actor k d T pages) ↔
    L.readable = true ∧ (L.rows actor lower d).length < 2 ^ 31 ∧
      ∀ e, ¬ Astride (byKeys L.keys) (L.rows actor lower d) (e * k) := by
  constructor
  · intro h
    have hfirst : L.readable = true ∧ (L.rows actor lower d).length < 2 ^ 31 := by
      obtain ⟨T, pages, hpart⟩ := h (fun _ _ => lowering lower) fun _ _ => rfl
      obtain ⟨p, d', hserve, _⟩ := hpart.answered 0 hpart.pos
      exact small_of_serve hk hk' (fun _ => rfl) hserve
    exact ⟨hfirst.1, hfirst.2, not_astride_of_partition hrole hk hk' hfirst.1 hfirst.2 h⟩
  · rintro ⟨hread, hcount, hedge⟩ env hlower
    exact ⟨_, _, partition_of_settled hrole hk hk' hlower hread hcount hedge⟩

end

/-! ## Which lists are settled -/

theorem keysLe_antisymm {a b : List Int} (h : keysLe a b = true) (h' : keysLe b a = true) : a = b := by
  induction a generalizing b with
  | nil =>
    cases b with
    | nil => rfl
    | cons y b => cases h'
  | cons x a ih =>
    cases b with
    | nil => cases h
    | cons y b =>
      simp only [keysLe, Bool.or_eq_true, Bool.and_eq_true, decide_eq_true_eq] at h h'
      rcases h with hlt | ⟨rfl, hab⟩
      · rcases h' with hgt | ⟨rfl, _⟩
        · omega
        · omega
      · rcases h' with hlt | ⟨_, hba⟩
        · omega
        · rw [ih hab hba]

/-- The sort keys end with the report id. -/
def Listing.Distinct (L : Listing) : Prop :=
  ∃ keys : ExpenseReport → List Int, ∀ r, L.keys r = keys r ++ desc r.reportID

theorem distinct_allReports (f : ReportListParams) : (Listing.allReports f).Distinct :=
  ⟨_, fun _ => rfl⟩

theorem distinct_processedReports (f : WorkflowListParams) : (Listing.processedReports f).Distinct :=
  ⟨_, fun _ => rfl⟩

/-- **A list whose sort keys end with the report id has no ties**, so all its edges are settled. -/
theorem Listing.Distinct.not_astride {L : Listing} {actor : Actor} {lower : Char → Char}
    {d : Database} {b : Nat} (h : L.Distinct) :
    ¬ Astride (byKeys L.keys) (L.rows actor lower d) b := by
  refine not_astride_of_unique totalPreorder_byKeys Listing.nodup_rows (fun x hx y hy hxy hyx => ?_)
  obtain ⟨keys, hkeys⟩ := h
  have heq := keysLe_antisymm hyx hxy
  rw [hkeys, hkeys] at heq
  have hid : y.reportID = x.reportID := by
    have hlast := (List.append_inj' heq rfl).2
    simpa [desc] using hlast
  exact List.inj_on_of_nodup_map d.reports.nodup (List.mem_of_mem_filter hy)
    (List.mem_of_mem_filter hx) hid

/-- Its pages are the list as soon as it can be read and counted. -/
theorem partitioned_iff_of_distinct {L : Listing} {actor : Actor} {lower : Char → Char} {d : Database} {k : Nat}
    (hdistinct : L.Distinct) (hrole : actor.role ∈ L.roles) (hk : 1 ≤ k) (hk' : k ≤ 100) :
    (∀ env : Nat → Nat → Oracle, (∀ i n, (env i n).lower = lower) →
      ∃ T pages, Partition env lower L actor k d T pages) ↔
    L.readable = true ∧ (L.rows actor lower d).length < 2 ^ 31 :=
  (partitioned_iff hrole hk hk').trans
    (and_congr_right' (and_iff_left fun _ => hdistinct.not_astride))

/-- Neither list of the whole tenant's reports ever loses one. -/
theorem partitioned_allReports {f : ReportListParams} {actor : Actor} {lower : Char → Char} {d : Database}
    {k : Nat} (hrole : actor.role ∈ (Listing.allReports f).roles) (hk : 1 ≤ k) (hk' : k ≤ 100) :
    (∀ env : Nat → Nat → Oracle, (∀ i n, (env i n).lower = lower) →
      ∃ T pages, Partition env lower (.allReports f) actor k d T pages) ↔
    ((Listing.allReports f).rows actor lower d).length < 2 ^ 31 :=
  (partitioned_iff_of_distinct (distinct_allReports f) hrole hk hk').trans (and_iff_right rfl)

theorem partitioned_processedReports {f : WorkflowListParams} {actor : Actor} {lower : Char → Char}
    {d : Database} {k : Nat} (hrole : actor.role ∈ (Listing.processedReports f).roles) (hk : 1 ≤ k)
    (hk' : k ≤ 100) :
    (∀ env : Nat → Nat → Oracle, (∀ i n, (env i n).lower = lower) →
      ∃ T pages, Partition env lower (.processedReports f) actor k d T pages) ↔
    ((Listing.processedReports f).rows actor lower d).length < 2 ^ 31 :=
  (partitioned_iff_of_distinct (distinct_processedReports f) hrole hk hk').trans (and_iff_right rfl)

/-! ## Two reports of one moment -/

/-- The ids a response lists. -/
def listedIds : Outcome → List UUID
  | .ok p => (p.listed.map Prod.fst).getD []
  | .error _ => []

namespace Sample

/-- A report of user `u`, created and submitted at time `t`. -/
def submittedAt (k u : UUID) (t : Timestamp) : ExpenseReport :=
  { report with
    reportID := k, userID := u, createdAt := t, updatedAt := t, status := .submitted
    submittedBy := some u, submittedAt := some t }

/-- Five reports of three users wait for approval; two are of one moment. -/
def desk : Database :=
  { database with reports := ((((Table.empty.put (submittedAt 1 20 4)).put (submittedAt 2 20 6)).put
    (submittedAt 3 21 6)).put (submittedAt 4 22 7)).put (submittedAt 5 20 9) }

/-- The list an approver works on, unfiltered. -/
def worklist : Listing := .pendingReports ⟨none, 0, 0⟩

/-- Another draft of the owner's, created at the same moment. -/
def twin : ExpenseReport := { report with reportID := 3 }

def twins : Database := { database with reports := database.reports.put twin }

/-- The owner's reports, unfiltered. -/
def ownList : Listing := .myReports ⟨none, none, none, none, none, 0, 0⟩

/-- Two to a page, the reports of one moment in either order. -/
example : listedIds (server.serve (fun _ => lowering id) (.tenant approver (worklist.request 1 2)) desk).1 =
      [5, 4] ∧
    listedIds (server.serve (fun _ => { lowering id with rank := fun k => k })
      (.tenant approver (worklist.request 2 2)) desk).1 = [2, 3] ∧
    listedIds (server.serve (fun _ => lowering id) (.tenant approver (worklist.request 3 2)) desk).1 = [1] := by
  decide +kernel

end Sample

/-- The two reports of one moment are on one page, the second of three. -/
theorem partitioned_of_desk : Sample.approver.role ∈ Sample.worklist.roles ∧
    ∀ env : Nat → Nat → Oracle, (∀ i n, (env i n).lower = id) →
      ∃ T pages, Partition env id Sample.worklist Sample.approver 2 Sample.desk T pages := by
  have hrole : Sample.approver.role ∈ Sample.worklist.roles := by decide
  refine ⟨hrole, (partitioned_iff hrole (by decide) (by decide)).mpr ⟨rfl, by decide, ?_⟩⟩
  exact not_astride_of_edges (by decide) (by decide)

/--
**One report twice, the other not at all.** Two reports of one moment, one a
page: the database arranges them one way for the first page and the other way
for the second.
-/
theorem not_partitioned_of_twins : Sample.owner.role ∈ Sample.ownList.roles ∧
    listedIds (server.serve (wavering id 3 1 0)
      (.tenant Sample.owner (Sample.ownList.request 1 1)) Sample.twins).1 = [3] ∧
    listedIds (server.serve (wavering id 3 1 1)
      (.tenant Sample.owner (Sample.ownList.request 2 1)) Sample.twins).1 = [3] ∧
    ¬ ∀ env : Nat → Nat → Oracle, (∀ i n, (env i n).lower = id) →
      ∃ T pages, Partition env id Sample.ownList Sample.owner 1 Sample.twins T pages := by
  have hrole : Sample.owner.role ∈ Sample.ownList.roles := by decide
  refine ⟨hrole, by decide +kernel, by decide +kernel, fun h => ?_⟩
  refine not_astride_of_partition hrole (by decide) (by decide) rfl (by decide) h 1
    ⟨Sample.twin, by decide, by decide, by decide⟩

end ExpenseSaas
