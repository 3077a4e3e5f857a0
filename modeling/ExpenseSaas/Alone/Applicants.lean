import ExpenseSaas.Alone.Listings
import ExpenseSaas.Postgres.Like

/-!
# Lists filtered by the applicant's name

The two work lists take a string to look for in the names of the owners, and put it
in an `ILIKE` pattern as it is. `Finds` is what the pages should be together: the
reports whose owner's name contains the string. For text without special characters
they are (`finds_iff`), as far as the database can read it and the pages are settled;
other text may do no harm to the owners there happen to be (`WorkList.Harmless`), but there is
always a name to which it does (`plain_iff`).
-/

namespace ExpenseSaas

open ReadCommitted Sql Paging

/-- The two lists that are filtered by name. -/
inductive WorkList where
  | pending
  | payable

namespace WorkList

/-- The status of the reports in the list. -/
def status : WorkList → ReportStatus
  | .pending => .submitted
  | .payable => .approved

/-- The list, filtered by `s`. -/
def listing (s : Go.Str) : WorkList → Listing
  | .pending => .pendingReports ⟨some s, 0, 0⟩
  | .payable => .payableReports ⟨some s, 0, 0⟩

/-- The live reports of the tenant in that status. -/
def among (W : WorkList) (actor : Actor) (r : ExpenseReport) : Bool :=
  r.tenantID = actor.tenantID && r.status = W.status && r.deletedAt.isNone

/-- The reports to be found: those whose owner's name contains `s`. -/
def wanted (W : WorkList) (actor : Actor) (lower : Char → Char) (d : Database) (s : Go.Str) : List ExpenseReport :=
  reportRows.filter (fun r => W.among actor r &&
    (d.users.find r.userID).any fun u => Contains lower u.name s) d

/-- Someone who has such a report. -/
def Owner (W : WorkList) (actor : Actor) (d : Database) (u : User) : Prop :=
  ∃ r ∈ d.reports.rows, W.among actor r = true ∧ d.users.find r.userID = some u

end WorkList

/-- The pages of the filtered list: the wanted reports, each once, and their number as the total. -/
structure Finds (env : Nat → Nat → Oracle) (lower : Char → Char) (W : WorkList) (actor : Actor) (k : Nat)
    (d : Database) (s : Go.Str) (T : Nat) (pages : Nat → List UUID) : Prop where
  pos : 0 < T
  answered : ∀ i < T, ∃ p d',
    server.serve (env i) (.tenant actor ((W.listing s).request (i + 1) k)) d = (.ok p, d') ∧
      p.listed = some (pages i, ⟨i + 1, k, (W.wanted actor lower d s).length, T⟩)
  exact : ((List.range T).flatMap pages).Perm ((W.wanted actor lower d s).map ExpenseReport.reportID)

/-- The special characters of the text do no harm to the owners there are. -/
structure WorkList.Harmless (W : WorkList) (actor : Actor) (lower : Char → Char) (d : Database) (s : String) : Prop where
  /-- Nobody is found who does not have the text in the name. -/
  wildcards : ∀ u, W.Owner actor d u → Matches ((pattern s).map lower) (u.name.toList.map lower) →
    Contains lower u.name (Go.lit s)
  /-- Where something is escaped, nobody is missed who does. -/
  escapes : '\\' ∈ s.toList → ∀ u, W.Owner actor d u → Contains lower u.name (Go.lit s) →
    Matches ((pattern s).map lower) (u.name.toList.map lower)

section

variable {d : Database} {W : WorkList} {actor : Actor} {lower : Char → Char} {k : Nat} {s : Go.Str} {t : String}

/-- **The condition on the text**, as far as the names of the owners go. -/
theorem harmless_iff (hspecial : KeepsSpecial lower) : PlainText t.toList ∨ W.Harmless actor lower d t ↔
    ∀ u, W.Owner actor d u → (ilike lower u.name t = true ↔ Contains lower u.name (Go.lit t)) := by
  constructor
  · rintro (hplain | hharmless) u hu
    · exact ilike_iff_contains hspecial hplain
    · constructor
      · exact fun h => hharmless.wildcards u hu ((ilike_iff_matches hspecial).mp h)
      · intro h
        by_cases hescape : '\\' ∈ t.toList
        · exact (ilike_iff_matches hspecial).mpr (hharmless.escapes hescape u hu h)
        · exact ilike_of_contains hspecial hescape h
  · intro h
    right
    refine ⟨fun u hu hmatch => ?_, fun _ u hu hcontains => ?_⟩
    · exact (h u hu).mp ((ilike_iff_matches hspecial).mpr hmatch)
    · exact (ilike_iff_matches hspecial).mp ((h u hu).mpr hcontains)

/-- What the query selects. -/
theorem selects_listing {r : ExpenseReport} : (W.listing (Go.lit t)).selects actor lower d r =
    (W.among actor r && (d.users.find r.userID).any fun u => ilike lower u.name t) := by
  have hselects : ∀ status, ListWorkflowParams.selects ⟨actor.tenantID, 0, 0, some (Go.lit t)⟩ status d
      (lowering lower) r = ((r.tenantID = actor.tenantID && r.status = status && r.deletedAt.isNone) &&
        (d.users.find r.userID).any fun u => ilike lower u.name t) := by
    intro status
    unfold ListWorkflowParams.selects
    cases d.users.find r.userID with
    | none => simp
    | some u => simp [given, lowering]
  cases W with
  | pending => exact hselects .submitted
  | payable => exact hselects .approved

theorem readable_listing : (W.listing s).readable = readableText s := by
  cases W with
  | pending => exact Option.all_some
  | payable => exact Option.all_some

/-- **The query selects what is wanted** exactly when the pattern says what it should. -/
theorem rows_eq_wanted_iff (hspecial : KeepsSpecial lower) :
    (W.listing (Go.lit t)).rows actor lower d = W.wanted actor lower d (Go.lit t) ↔
      PlainText t.toList ∨ W.Harmless actor lower d t := by
  have howner : ∀ r : ExpenseReport, ((d.users.find r.userID).any (fun u => ilike lower u.name t) = true ↔
      (d.users.find r.userID).any (fun u => Contains lower u.name (Go.lit t)) = true) ↔
      ∀ u, d.users.find r.userID = some u →
        (ilike lower u.name t = true ↔ Contains lower u.name (Go.lit t)) := by
    intro r
    cases d.users.find r.userID with
    | none => simp
    | some u => simp
  have hrow : ∀ r : ExpenseReport, ((W.listing (Go.lit t)).selects actor lower d r = true ↔
      (W.among actor r && (d.users.find r.userID).any fun u => Contains lower u.name (Go.lit t)) = true) ↔
      (W.among actor r = true → ∀ u, d.users.find r.userID = some u →
        (ilike lower u.name t = true ↔ Contains lower u.name (Go.lit t))) := by
    intro r
    rw [selects_listing, Bool.and_eq_true, Bool.and_eq_true, and_congr_right_iff]
    exact imp_congr Iff.rfl (howner r)
  rw [harmless_iff hspecial]
  unfold Listing.rows WorkList.wanted
  show d.reports.rows.filter _ = d.reports.rows.filter _ ↔ _
  constructor
  · rintro heq u ⟨r, hr, hamong, hu⟩
    refine (hrow r).mp ?_ hamong u hu
    have hmem := congrArg (r ∈ ·) heq
    simpa only [List.mem_filter, hr, true_and, eq_iff_iff] using hmem
  · intro h
    refine List.filter_congr fun r hr => ?_
    exact Bool.eq_iff_iff.mpr ((hrow r).mpr fun hamong u hu => h u ⟨r, hr, hamong, hu⟩)

/-- If what is shown is what is wanted, then it is what the query selects. -/
theorem rows_eq_wanted (hrole : actor.role ∈ (W.listing s).roles) (hk : 1 ≤ k) (hk' : k ≤ 100)
    (hread : (W.listing s).readable = true) (hcount : ((W.listing s).rows actor lower d).length < 2 ^ 31)
    {env : Nat → Nat → Oracle} (hlower : ∀ i n, (env i n).lower = lower) {T : Nat} {pages : Nat → List UUID}
    (h : Finds env lower W actor k d s T pages) :
    (W.listing s).rows actor lower d = W.wanted actor lower d s := by
  obtain ⟨hN, _, hpages⟩ := slices_of_answered hrole hk hk' hlower hread hcount h.pos h.answered
  have hsub : W.wanted actor lower d s ⊆ (W.listing s).rows actor lower d := by
    intro r hr
    have hid := h.exact.symm.subset (List.mem_map_of_mem hr)
    obtain ⟨i, hi, hmem⟩ := List.mem_flatMap.mp hid
    rw [hpages i (List.mem_range.mp hi)] at hmem
    obtain ⟨x, hx, hxid⟩ := List.mem_map.mp hmem
    -- A row of a page is a row of the list, and there is one row of this key.
    have hx : x ∈ (W.listing s).rows actor lower d :=
      Listing.arranges_arranged.perm.subset (List.mem_of_mem_drop (List.mem_of_mem_take hx))
    have hxr : x = r := List.inj_on_of_nodup_map d.reports.nodup (List.mem_of_mem_filter hx)
      (List.mem_of_mem_filter hr) hxid
    exact hxr ▸ hx
  have hnodup : (W.wanted actor lower d s).Nodup := nodup_reports.filter _
  have hperm : (W.wanted actor lower d s).Perm ((W.listing s).rows actor lower d) :=
    (List.subperm_of_subset hnodup hsub).perm_of_length_le (Nat.le_of_eq hN.symm)
  show d.reports.rows.filter _ = d.reports.rows.filter _
  refine List.filter_congr fun r hr => Bool.eq_iff_iff.mpr ?_
  have hmem : r ∈ d.reports.rows.filter _ ↔ r ∈ d.reports.rows.filter _ := hperm.mem_iff.symm
  simpa only [List.mem_filter, hr, true_and] using hmem

/--
**The filter finds the reports of the owners whose name contains the string** if
it is text the database can read, no character of it is special or those that are
do no harm, and the pages of the list are settled; and only then. Every text with a
special character does harm to some name.
-/
theorem finds_iff (hspecial : KeepsSpecial lower) (hrole : actor.role ∈ (W.listing s).roles) (hk : 1 ≤ k)
    (hk' : k ≤ 100) :
    ((∀ env : Nat → Nat → Oracle, (∀ i n, (env i n).lower = lower) →
        ∃ T pages, Finds env lower W actor k d s T pages) ↔
      (∃ t, s = Go.lit t ∧ (∀ c ∈ t.toList, c.toNat ≠ 0) ∧ (PlainText t.toList ∨ W.Harmless actor lower d t)) ∧
        (W.wanted actor lower d s).length < 2 ^ 31 ∧
        ∀ e, ¬ Astride (byKeys (W.listing s).keys) (W.wanted actor lower d s) (e * k)) ∧
    ∀ t, (∀ name, ilike lower name t = true ↔ Contains lower name (Go.lit t)) ↔ PlainText t.toList := by
  refine ⟨?_, fun t => plain_iff hspecial⟩
  constructor
  · intro h
    have hlower : ∀ i n : Nat, ((fun _ _ => lowering lower : Nat → Nat → Oracle) i n).lower = lower := fun _ _ => rfl
    obtain ⟨T, pages, hfinds⟩ := h _ hlower
    obtain ⟨p, d', hserve, _⟩ := hfinds.answered 0 hfinds.pos
    obtain ⟨hread, hcount⟩ := small_of_serve hk hk' (hlower 0) hserve
    have heq := rows_eq_wanted hrole hk hk' hread hcount hlower hfinds
    obtain ⟨t, rfl, hzero⟩ := readableText_iff.mp (readable_listing ▸ hread)
    refine ⟨⟨t, rfl, hzero, (rows_eq_wanted_iff hspecial).mp heq⟩, heq ▸ hcount, fun e => ?_⟩
    rw [← heq]
    refine not_astride_of_once (N := (W.wanted actor lower d (Go.lit t)).length) hrole hk hk' hread hcount
      (fun env hlower => ?_) e
    obtain ⟨T, pages, hfinds⟩ := h env hlower
    refine ⟨T, pages, hfinds.pos, hfinds.answered, hfinds.exact.nodup_iff.mpr ?_⟩
    exact d.reports.nodup.sublist (List.filter_sublist.map _)
  · rintro ⟨⟨t, rfl, hzero, hspared⟩, hcount, hedge⟩ env hlower
    have heq := (rows_eq_wanted_iff hspecial).mpr hspared
    have hread := readableText_iff.mpr ⟨t, rfl, hzero⟩
    rw [← heq] at hcount hedge
    obtain ⟨T, pages, hpart⟩ := (partitioned_iff hrole hk hk').mpr
      ⟨readable_listing ▸ hread, hcount, hedge⟩ env hlower
    refine ⟨T, pages, hpart.pos, ?_, ?_⟩
    · rw [← heq]
      exact hpart.answered
    · rw [← heq]
      exact hpart.exact

end

/-- Three reports of the owner's, found by part of the name on two pages, among those of others. -/
theorem finds_of_part : KeepsSpecial id ∧ ∀ env : Nat → Nat → Oracle, (∀ i n, (env i n).lower = id) →
    ∃ T pages, Finds env id .pending Sample.approver 2 Sample.desk (Go.lit "wne") T pages := by
  have hspecial : KeepsSpecial id := fun c m _ => Iff.rfl
  have hletters : ∀ c ∈ "wne".toList, c = 'w' ∨ c = 'n' ∨ c = 'e' := by
    intro c hc
    simpa using hc
  have hplain : PlainText "wne".toList := by
    intro c hc
    rcases hletters c hc with rfl | rfl | rfl
    all_goals decide
  have hzero : ∀ c ∈ "wne".toList, c.toNat ≠ 0 := by
    intro c hc
    rcases hletters c hc with rfl | rfl | rfl
    all_goals decide
  refine ⟨hspecial, ((finds_iff hspecial (by decide) (by decide) (by decide)).1).mpr
    ⟨⟨_, rfl, hzero, .inl hplain⟩, by decide +kernel, ?_⟩⟩
  exact not_astride_of_edges (by decide) (by decide +kernel)

/--
**A character that stands for any other.** No owner's name contains `o_ner`, and
the owner's reports are found.
-/
theorem not_finds_of_underscore :
    listedIds (server.serve (fun _ => lowering id) (.tenant Sample.approver
      (.listPendingReports ⟨some (Go.lit "o_ner"), 1, 20⟩)) Sample.desk).1 = [5, 2, 1] ∧
    Sample.desk.users.find 20 = some ⟨20, "owner@example", "owner", .argon2id "old" 0, 0, 0⟩ ∧
    ¬ Contains id "owner" (Go.lit "o_ner") ∧
    ¬ ∀ env : Nat → Nat → Oracle, (∀ i n, (env i n).lower = id) →
      ∃ T pages, Finds env id .pending Sample.approver 20 Sample.desk (Go.lit "o_ner") T pages := by
  have hspecial : KeepsSpecial id := fun c m _ => Iff.rfl
  have hcontains : ¬ Contains id "owner" (Go.lit "o_ner") := by decide +kernel
  refine ⟨by decide +kernel, by decide +kernel, hcontains, fun h => ?_⟩
  have hlower : ∀ i n : Nat, ((fun _ _ => lowering id : Nat → Nat → Oracle) i n).lower = id := fun _ _ => rfl
  obtain ⟨T, pages, hfinds⟩ := h _ hlower
  have heq := rows_eq_wanted (W := .pending) (by decide) (by decide) (by decide) (by decide +kernel)
    (by decide +kernel) hlower hfinds
  have htold := (harmless_iff hspecial).mp ((rows_eq_wanted_iff hspecial).mp heq)
  have howner : WorkList.pending.Owner Sample.approver Sample.desk
      ⟨20, "owner@example", "owner", .argon2id "old" 0, 0, 0⟩ :=
    ⟨Sample.submittedAt 1 20 4, by decide, by decide, by decide +kernel⟩
  exact hcontains ((htold _ howner).mp (by decide +kernel))

end ExpenseSaas
