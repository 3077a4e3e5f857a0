import ExpenseSaas.Postgres.Statements

/-!
# Pattern matching

`Matches` says what the parts of a pattern stand for, and `LIKE` computes it
(`like_iff_matches`). Here the pattern is text between two `%`. If no character of
the text is special, the names that match are those that contain the text
(`ilike_iff_contains`), and this is the only case: for any other text there is a
name on which the two differ, which `subject` constructs (`plain_iff`). Wildcards
alone find too many names, and escapes may miss some as well (`ilike_of_contains`).
-/

namespace ExpenseSaas.Sql

/-- `c` stands for itself in a pattern. -/
def Literal (c : Char) : Prop := c ≠ '%' ∧ c ≠ '_' ∧ c ≠ '\\'

instance (c : Char) : Decidable (Literal c) := inferInstanceAs (Decidable (_ ∧ _ ∧ _))

/-- `lower` makes no special character of another one, and leaves those there are. -/
def KeepsSpecial (lower : Char → Char) : Prop := ∀ c m : Char, ¬ Literal m → (lower c = m ↔ c = m)

/-- A string with its letters lowered. -/
def lowered (lower : Char → Char) (s : Go.Str) : Go.Str :=
  s.map fun
    | .char c => .char (lower c)
    | .invalid b => .invalid b

/-- The name contains the string, up to the case of letters. -/
def Contains (lower : Char → Char) (name : String) (s : Go.Str) : Prop :=
  lowered lower s <:+: lowered lower (Go.lit name)

instance (lower : Char → Char) (name : String) (s : Go.Str) : Decidable (Contains lower name s) :=
  inferInstanceAs (Decidable (_ <:+: _))

/--
**What a pattern stands for**: `%` for any text, `_` for any character, and what
follows `\`, as everything else, for itself.
-/
inductive Matches : List Char → List Char → Prop where
  | nil : Matches [] []
  | percent {ps cs : List Char} (any : List Char) : Matches ps cs → Matches ('%' :: ps) (any ++ cs)
  | underscore {ps cs : List Char} (c : Char) : Matches ps cs → Matches ('_' :: ps) (c :: cs)
  | escape {ps cs : List Char} (p : Char) : Matches ps cs → Matches ('\\' :: p :: ps) (p :: cs)
  | literal {ps cs : List Char} {p : Char} : Literal p → Matches ps cs → Matches (p :: ps) (p :: cs)

/-- No character of the text is special in a pattern. -/
def PlainText (s : List Char) : Prop := ∀ c ∈ s, Literal c

/-- The pattern that is made of a text. -/
def pattern (s : String) : List Char := '%' :: s.toList ++ ['%']

section

variable {ps cs l : List Char} {p c : Char} {lower : Char → Char}

/-! ## `LIKE` -/

theorem like_nil : like [] cs = true ↔ cs = [] := by
  cases cs <;> simp [like]

/-- `%` stands for any text. -/
theorem like_percent : like ('%' :: ps) cs = true ↔ ∃ rest, rest <:+ cs ∧ like ps rest = true := by
  simp only [like, List.any_eq_true, List.mem_range]
  constructor
  · rintro ⟨n, _, h⟩
    exact ⟨_, List.drop_suffix n cs, h⟩
  · rintro ⟨rest, ⟨before, rfl⟩, h⟩
    refine ⟨before.length, ?_, ?_⟩
    · rw [List.length_append]
      omega
    · rwa [List.drop_left]

/-- `_` stands for any character. -/
theorem like_underscore : like ('_' :: ps) cs = true ↔ ∃ c rest, cs = c :: rest ∧ like ps rest = true := by
  cases cs <;> simp [like]

/-- A character is met by itself. -/
theorem like_head {b : List Char → Bool} : (p = c && b cs) = true ↔
    ∃ rest, c :: cs = p :: rest ∧ b rest = true := by
  rw [Bool.and_eq_true, decide_eq_true_eq]
  constructor
  · rintro ⟨rfl, h⟩
    exact ⟨cs, rfl, h⟩
  · rintro ⟨rest, heq, h⟩
    cases heq
    exact ⟨rfl, h⟩

/-- After `\` a character stands for itself. -/
theorem like_escape : like ('\\' :: p :: ps) cs = true ↔ ∃ rest, cs = p :: rest ∧ like ps rest = true := by
  cases cs with
  | nil =>
    refine iff_of_false Bool.false_ne_true ?_
    rintro ⟨rest, h, _⟩
    cases h
  | cons c cs => exact like_head

theorem like_literal (hp : Literal p) : like (p :: ps) cs = true ↔ ∃ rest, cs = p :: rest ∧ like ps rest = true := by
  obtain ⟨hpercent, hunderscore, hescape⟩ := hp
  cases cs with
  | nil =>
    have hno : like (p :: ps) [] = false := by
      rw [like.eq_def]
      split <;> simp_all
    rw [hno]
    refine iff_of_false Bool.false_ne_true ?_
    rintro ⟨rest, h, _⟩
    cases h
  | cons c cs =>
    rw [like.eq_8 p ps c cs hpercent hunderscore fun _ _ h _ => hescape h]
    exact like_head

/-- The same for what the pattern stands for. -/
theorem matches_percent : Matches ('%' :: ps) cs ↔ ∃ rest, rest <:+ cs ∧ Matches ps rest := by
  constructor
  · intro h
    cases h with
    | percent any h => exact ⟨_, ⟨any, rfl⟩, h⟩
    | literal hp => exact absurd rfl hp.1
  · rintro ⟨rest, ⟨any, rfl⟩, h⟩
    exact .percent any h

theorem matches_underscore : Matches ('_' :: ps) cs ↔ ∃ c rest, cs = c :: rest ∧ Matches ps rest := by
  constructor
  · intro h
    cases h with
    | underscore c h => exact ⟨c, _, rfl, h⟩
    | literal hp => exact absurd rfl hp.2.1
  · rintro ⟨c, rest, rfl, h⟩
    exact .underscore c h

theorem matches_escape : Matches ('\\' :: p :: ps) cs ↔ ∃ rest, cs = p :: rest ∧ Matches ps rest := by
  constructor
  · intro h
    cases h with
    | escape p h => exact ⟨_, rfl, h⟩
    | literal hp => exact absurd rfl hp.2.2
  · rintro ⟨rest, rfl, h⟩
    exact .escape p h

theorem matches_literal (hp : Literal p) : Matches (p :: ps) cs ↔ ∃ rest, cs = p :: rest ∧ Matches ps rest := by
  obtain ⟨hpercent, hunderscore, hescape⟩ := hp
  constructor
  · intro h
    cases h with
    | percent => exact absurd rfl hpercent
    | underscore => exact absurd rfl hunderscore
    | escape => exact absurd rfl hescape
    | literal _ h => exact ⟨_, rfl, h⟩
  · rintro ⟨rest, rfl, h⟩
    exact .literal ⟨hpercent, hunderscore, hescape⟩ h

theorem matches_nil : Matches [] cs ↔ cs = [] := by
  constructor
  · intro h
    cases h
    rfl
  · rintro rfl
    exact .nil

/-- A name that the pattern matches: special characters are dropped, or others are put in their place. -/
def subject : List Char → List Char
  | [] => []
  | ['\\'] => ['%']
  | '\\' :: p :: ps => p :: subject ps
  | '%' :: ps => subject ps
  | '_' :: ps => 'x' :: subject ps
  | p :: ps => p :: subject ps

/-- What is left for the last case. -/
theorem literal_of_other (hsingle : p = '\\' → ps = [] → False)
    (hescaped : ∀ q qs, p = '\\' → ps = q :: qs → False) (hpercent : p ≠ '%') (hunderscore : p ≠ '_') :
    Literal p := by
  refine ⟨hpercent, hunderscore, fun hp => ?_⟩
  cases ps with
  | nil => exact hsingle hp rfl
  | cons q qs => exact hescaped q qs hp rfl

/-- **`LIKE` computes what the pattern stands for**, behind any text. -/
theorem like_iff_matches : like (l ++ ['%']) cs = true ↔ Matches (l ++ ['%']) cs := by
  -- The end of every pattern: `%`, or `\%`.
  have hnil : ∀ rest, like [] rest = true ↔ Matches [] rest :=
    fun rest => like_nil.trans matches_nil.symm
  have hmatch : ∀ {ps cs : List Char}, (∀ rest, like ps rest = true ↔ Matches ps rest) → ∀ p,
      (∃ rest, cs = p :: rest ∧ like ps rest = true) ↔ ∃ rest, cs = p :: rest ∧ Matches ps rest :=
    fun ih p => exists_congr fun rest => and_congr_right' (ih rest)
  induction l using subject.induct generalizing cs with
  | case1 =>
    exact like_percent.trans ((exists_congr fun rest => and_congr_right' (hnil rest)).trans matches_percent.symm)
  | case2 => exact like_escape.trans ((hmatch hnil '%').trans matches_escape.symm)
  | case3 p ps ih => exact like_escape.trans ((hmatch (fun rest => ih) p).trans matches_escape.symm)
  | case4 ps ih =>
    exact like_percent.trans ((exists_congr fun rest => and_congr_right' ih).trans matches_percent.symm)
  | case5 ps ih =>
    refine like_underscore.trans (Iff.trans ?_ matches_underscore.symm)
    exact exists_congr fun c => exists_congr fun rest => and_congr_right' ih
  | case6 p ps hsingle hescaped hnotpercent hnotunderscore ih =>
    have hp : Literal p := literal_of_other hsingle hescaped hnotpercent hnotunderscore
    exact (like_literal hp).trans ((hmatch (fun rest => ih) p).trans (matches_literal hp).symm)

/-- Without `\`, text stands for itself too. -/
theorem matches_self (h : '\\' ∉ l) : Matches (l ++ ['%']) (l ++ cs) := by
  induction l with
  | nil => exact matches_percent.mpr ⟨[], List.nil_suffix, .nil⟩
  | cons c l ih =>
    have ih := ih fun hl => h (List.mem_cons_of_mem c hl)
    by_cases hpercent : c = '%'
    · exact hpercent ▸ .percent ['%'] ih
    · by_cases hunderscore : c = '_'
      · exact hunderscore ▸ .underscore '_' ih
      · exact .literal ⟨hpercent, hunderscore, fun hc => h (hc ▸ List.mem_cons_self)⟩ ih

/-- Plain text and `%` after it: what begins with the text. -/
theorem like_plain (h : PlainText l) : like (l ++ ['%']) cs = true ↔ l <+: cs := by
  induction l generalizing cs with
  | nil =>
    rw [List.nil_append, like_percent]
    exact iff_of_true ⟨[], List.nil_suffix, by rw [like_nil]⟩ List.nil_prefix
  | cons p l ih =>
    rw [List.cons_append, like_literal (h p List.mem_cons_self)]
    have ih : ∀ rest, like (l ++ ['%']) rest = true ↔ l <+: rest :=
      fun rest => ih fun c hc => h c (List.mem_cons_of_mem _ hc)
    constructor
    · rintro ⟨rest, rfl, hrest⟩
      exact (List.prefix_cons_inj p).mpr ((ih rest).mp hrest)
    · rintro ⟨rest, rfl⟩
      exact ⟨l ++ rest, rfl, (ih _).mpr (List.prefix_append l rest)⟩

/-! ## `ILIKE` -/

theorem KeepsSpecial.literal (h : KeepsSpecial lower) : Literal (lower c) ↔ Literal c := by
  unfold Literal
  have hm : ∀ m, ¬ Literal m → (lower c ≠ m ↔ c ≠ m) := fun m hm => not_congr (h c m hm)
  rw [hm '%' (by decide), hm '_' (by decide), hm '\\' (by decide)]

theorem KeepsSpecial.fixes (h : KeepsSpecial lower) (hc : ¬ Literal c) : lower c = c := (h c c hc).mpr rfl

theorem KeepsSpecial.plain (h : KeepsSpecial lower) : PlainText (l.map lower) ↔ PlainText l := by
  unfold PlainText
  rw [List.forall_mem_map]
  exact forall_congr' fun c => imp_congr Iff.rfl h.literal

/-- What `ILIKE` compares. -/
theorem ilike_iff (h : KeepsSpecial lower) {name s : String} : ilike lower name s = true ↔
    ∃ rest, rest <:+ name.toList.map lower ∧ like (s.toList.map lower ++ ['%']) rest = true := by
  have hpercent : lower '%' = '%' := h.fixes (by decide)
  unfold ilike
  rw [List.map_append, List.map_cons, List.map_cons, hpercent, List.map_nil, List.cons_append, like_percent]

/-- `ILIKE` is what the pattern stands for, up to the case of letters. -/
theorem ilike_iff_matches (h : KeepsSpecial lower) {name s : String} :
    ilike lower name s = true ↔ Matches ((pattern s).map lower) (name.toList.map lower) := by
  have hpercent : lower '%' = '%' := h.fixes (by decide)
  have hpattern : (pattern s).map lower = ('%' :: s.toList.map lower) ++ ['%'] := by
    unfold pattern
    rw [List.map_append, List.map_cons, List.map_cons, hpercent, List.map_nil]
  rw [hpattern]
  unfold ilike
  rw [← like_iff_matches]
  exact Iff.of_eq (congrArg (like · _ = true) hpattern)

theorem lowered_lit {name : String} : lowered lower (Go.lit name) = (name.toList.map lower).map .char := by
  unfold lowered Go.lit
  rw [List.map_map, List.map_map]
  rfl

/-- To contain a text is to contain its characters. -/
theorem contains_lit {name s : String} :
    Contains lower name (Go.lit s) ↔ s.toList.map lower <:+: name.toList.map lower := by
  have hinj : Function.Injective (List.map Go.Rune.char) :=
    List.map_injective_iff.mpr fun c c' h => Go.Rune.char.inj h
  unfold Contains
  rw [lowered_lit, lowered_lit, List.infix_map_iff]
  constructor
  · rintro ⟨l, hl, heq⟩
    exact hinj heq ▸ hl
  · exact fun h => ⟨_, h, rfl⟩

/-- **Text without special characters** is looked for as it is. -/
theorem ilike_iff_contains (h : KeepsSpecial lower) {name s : String} (hs : PlainText s.toList) :
    ilike lower name s = true ↔ Contains lower name (Go.lit s) := by
  rw [ilike_iff h, contains_lit, List.infix_iff_prefix_suffix]
  refine exists_congr fun rest => ?_
  rw [like_plain (h.plain.mpr hs)]
  exact and_comm

/-- **Without escapes no name is missed** that contains the text. -/
theorem ilike_of_contains (h : KeepsSpecial lower) {name s : String} (hs : '\\' ∉ s.toList)
    (hcontains : Contains lower name (Go.lit s)) : ilike lower name s = true := by
  obtain ⟨before, after, hname⟩ := contains_lit.mp hcontains
  have hescape : '\\' ∉ s.toList.map lower := by
    intro hmem
    obtain ⟨c, hc, heq⟩ := List.mem_map.mp hmem
    exact hs ((h c '\\' (by decide)).mp heq ▸ hc)
  rw [ilike_iff h]
  refine ⟨s.toList.map lower ++ after, ⟨before, ?_⟩, like_iff_matches.mpr (matches_self hescape)⟩
  rw [← hname, List.append_assoc]

/-! ## Other text -/

theorem like_subject (h : KeepsSpecial lower) :
    like (l.map lower ++ ['%']) ((subject l).map lower) = true := by
  have hpercent : lower '%' = '%' := h.fixes (by decide)
  have hunderscore : lower '_' = '_' := h.fixes (by decide)
  have hescape : lower '\\' = '\\' := h.fixes (by decide)
  fun_induction subject l with
  | case1 => exact like_percent.mpr ⟨[], List.suffix_refl _, by rw [like_nil]⟩
  | case2 =>
    rw [List.map_cons, List.map_cons, hpercent, hescape]
    exact like_escape.mpr ⟨[], rfl, by rw [like_nil]⟩
  | case3 p ps ih =>
    rw [List.map_cons, List.map_cons, hescape]
    exact like_escape.mpr ⟨_, rfl, ih⟩
  | case4 ps ih =>
    rw [List.map_cons, hpercent]
    exact like_percent.mpr ⟨_, List.suffix_refl _, ih⟩
  | case5 ps ih =>
    rw [List.map_cons, hunderscore]
    exact like_underscore.mpr ⟨_, _, rfl, ih⟩
  | case6 p ps hsingle hescaped hnotpercent hnotunderscore ih =>
    have hp : Literal p := literal_of_other hsingle hescaped hnotpercent hnotunderscore
    rw [List.map_cons]
    exact (like_literal (h.literal.mpr hp)).mpr ⟨_, rfl, ih⟩

theorem length_subject : (subject l).length ≤ l.length := by
  fun_induction subject l with
  | case1 => rfl
  | case2 => rfl
  | case3 p ps ih =>
    simp only [List.length_cons]
    omega
  | case4 ps ih =>
    rw [List.length_cons]
    omega
  | case5 ps ih =>
    simp only [List.length_cons]
    omega
  | case6 p ps _ _ _ _ ih =>
    simp only [List.length_cons]
    omega

/-- It is the text itself only if that is plain. -/
theorem plain_of_subject (h : KeepsSpecial lower) (heq : l.map lower = (subject l).map lower) : PlainText l := by
  have hlength := congrArg List.length heq
  rw [List.length_map, List.length_map] at hlength
  fun_induction subject l with
  | case1 => exact fun c hc => absurd hc List.not_mem_nil
  | case2 =>
    have hhead : lower '\\' = lower '%' := (List.cons.inj heq).1
    rw [h.fixes (by decide), h.fixes (by decide)] at hhead
    exact absurd hhead (by decide)
  | case3 p ps ih =>
    have hle := length_subject (l := ps)
    simp only [List.length_cons] at hlength
    omega
  | case4 ps ih =>
    have hle := length_subject (l := ps)
    rw [List.length_cons] at hlength
    omega
  | case5 ps ih =>
    have hhead : lower '_' = lower 'x' := (List.cons.inj heq).1
    rw [h.fixes (by decide)] at hhead
    exact absurd ((h 'x' '_' (by decide)).mp hhead.symm) (by decide)
  | case6 p ps hsingle hescaped hnotpercent hnotunderscore ih =>
    have hps := ih (List.cons.inj heq).2 (Nat.succ.inj hlength)
    refine List.forall_mem_cons.mpr ⟨?_, hps⟩
    exact literal_of_other hsingle hescaped hnotpercent hnotunderscore

/-- **There is no other text** that is looked for as it is. -/
theorem plain_iff (h : KeepsSpecial lower) {s : String} :
    (∀ name, ilike lower name s = true ↔ Contains lower name (Go.lit s)) ↔ PlainText s.toList := by
  constructor
  · intro hall
    have hmatch : ilike lower (String.ofList (subject s.toList)) s = true := by
      rw [ilike_iff h, String.toList_ofList]
      exact ⟨_, List.suffix_refl _, like_subject h⟩
    have hcontains := contains_lit.mp ((hall _).mp hmatch)
    rw [String.toList_ofList] at hcontains
    refine plain_of_subject h (hcontains.eq_of_length_le ?_)
    rw [List.length_map, List.length_map]
    exact length_subject
  · intro hs name
    exact ilike_iff_contains h hs

end

end ExpenseSaas.Sql
