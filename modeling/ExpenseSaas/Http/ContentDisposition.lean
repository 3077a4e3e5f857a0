import Mathlib.Data.List.TakeWhile

/-!
# Content-Disposition

The grammar of RFC 6266: a disposition type, and parameters that each have a name
and a value, which is a token or a quoted string. In a quoted string a backslash
stands before a character that is meant literally, and a quote ends the string.
Blanks may stand around every part. A name is read without regard to letter case.

`quotedString_eq_iff` is what this means for who writes a text between quotes as it
is: it is read back if it is made of characters that stand for themselves, and no
other text is.
-/

namespace ContentDisposition

/-- CTL. -/
def isControl (c : Char) : Bool := c.val < 32 || c.val = 127

/-- A space or a tab, which is all that is left of LWS in one line. -/
def isBlank (c : Char) : Bool := c = ' ' || c = '\t'

/-- The separators, without the blanks. -/
def separators : List Char :=
  ['(', ')', '<', '>', '@', ',', ';', ':', '\\', '"', '/', '[', ']', '?', '=', '{', '}']

/-- What a token is made of. -/
def isTokenChar (c : Char) : Bool :=
  c.val < 128 && !isControl c && !isBlank c && !separators.contains c

/-- TEXT: anything but control characters, blanks included. -/
def isText (c : Char) : Bool := isBlank c || !isControl c

/-- A character that stands for itself between quotes. -/
def isPlain (c : Char) : Bool := isText c && c ≠ '"' && c ≠ '\\'

/-- A token, and what follows it. -/
def token (s : List Char) : Option (List Char × List Char) :=
  match s.takeWhile isTokenChar with
  | [] => none
  | t => some (t, s.dropWhile isTokenChar)

/--
What stands behind an opening quote: the text that is meant, and what follows the
closing quote. A character that is `escaped` stands behind a backslash.
-/
def quotedString (escaped : Bool) : List Char → Option (List Char × List Char)
  | [] => none
  | c :: s =>
    if escaped then
      if c.val < 128 then (quotedString false s).map fun r => (c :: r.1, r.2) else none
    else if c = '"' then some ([], s)
    else if c = '\\' then quotedString true s
    else if isText c then (quotedString false s).map fun r => (c :: r.1, r.2)
    else none

/-- A token or a quoted string. -/
def value (s : List Char) : Option (List Char × List Char) :=
  match s with
  | '"' :: s => quotedString false s
  | s => token s

/-- A name and its value, and what follows. -/
def parameter (s : List Char) : Option ((List Char × List Char) × List Char) := do
  let (name, s) ← token (s.dropWhile isBlank)
  match s.dropWhile isBlank with
  | '=' :: s =>
    let (v, s) ← value (s.dropWhile isBlank)
    some ((name.map Char.toLower, v), s)
  | _ => none

/-- Parameters, each behind a semicolon; there are no more of them than `fuel`. -/
def parameters : Nat → List Char → Option (List (List Char × List Char))
  | 0, s => if s.dropWhile isBlank = [] then some [] else none
  | fuel + 1, s =>
    match s.dropWhile isBlank with
    | [] => some []
    | ';' :: s => do
      let (p, s) ← parameter s
      let ps ← parameters fuel s
      some (p :: ps)
    | _ => none

/-- A disposition. -/
structure Disposition where
  type : List Char
  parameters : List (List Char × List Char)
  deriving DecidableEq

/-- A whole field; every parameter takes a character at least. -/
def parse (s : List Char) : Option Disposition := do
  let (type, rest) ← token (s.dropWhile isBlank)
  let ps ← parameters s.length rest
  some ⟨type, ps⟩

variable {s t rest : List Char}

theorem value_quote : value ('"' :: s) = quotedString false s := rfl

theorem parameters_nil {fuel : Nat} : parameters fuel [] = some [] := by
  cases fuel <;> rfl

theorem parameters_semicolon {fuel : Nat} : parameters (fuel + 1) (';' :: s) =
    (parameter s).bind fun r => (parameters fuel r.2).bind fun ps => some (r.1 :: ps) := by
  have hblank : (';' :: s).dropWhile isBlank = ';' :: s := List.dropWhile_cons_of_neg Bool.false_ne_true
  rw [parameters, hblank]
  rfl

/-! ## Tokens -/

theorem token_append (ht : t.all isTokenChar = true) (hne : t ≠ [])
    (hrest : (rest.head?).all (!isTokenChar ·) = true) : token (t ++ rest) = some (t, rest) := by
  have hmem : ∀ c ∈ t, isTokenChar c = true := List.all_eq_true.mp ht
  have htake : rest.takeWhile isTokenChar = [] := by
    cases rest with
    | nil => rfl
    | cons c rest =>
      refine List.takeWhile_cons_of_neg ?_
      simpa using hrest
  have hdrop : rest.dropWhile isTokenChar = rest := by
    cases rest with
    | nil => rfl
    | cons c rest =>
      refine List.dropWhile_cons_of_neg ?_
      simpa using hrest
  unfold token
  rw [List.takeWhile_append_of_pos hmem, htake, List.append_nil, List.dropWhile_append_of_pos hmem,
    hdrop]
  cases t with
  | nil => exact absurd rfl hne
  | cons c t => rfl

/-! ## Quoted strings -/

theorem plain_iff {c : Char} : isPlain c = true ↔ isText c = true ∧ c ≠ '"' ∧ c ≠ '\\' := by
  unfold isPlain
  simp only [Bool.and_eq_true, decide_eq_true_eq, and_assoc]

/-- Plain text is read as it is. -/
theorem quotedString_of_plain (h : s.all isPlain = true) :
    quotedString false (s ++ '"' :: rest) = some (s, rest) := by
  induction s with
  | nil => rfl
  | cons c s ih =>
    rw [List.all_cons, Bool.and_eq_true] at h
    obtain ⟨hc, hs⟩ := h
    obtain ⟨htext, hquote, hslash⟩ := plain_iff.mp hc
    rw [List.cons_append, quotedString, if_neg Bool.false_ne_true, if_neg hquote, if_neg hslash,
      if_pos htext, ih hs]
    rfl

/-- No text is read as a longer one. -/
theorem length_of_quotedString {escaped : Bool} {v r : List Char}
    (h : quotedString escaped (s ++ ['"']) = some (v, r)) : v.length ≤ s.length := by
  induction s generalizing escaped v with
  | nil =>
    rw [List.nil_append, quotedString] at h
    cases escaped with
    | true =>
      -- The quote is meant literally, and nothing closes the string.
      simp [quotedString] at h
    | false =>
      rw [if_neg Bool.false_ne_true, if_pos rfl] at h
      cases h
      exact Nat.le_refl 0
  | cons c s ih =>
    have hkept : ∀ {v : List Char}, ((quotedString false (s ++ ['"'])).map fun r => (c :: r.1, r.2)) =
        some (v, r) → v.length ≤ (c :: s).length := by
      intro v h
      obtain ⟨⟨v', r'⟩, hv, heq⟩ := Option.map_eq_some_iff.mp h
      cases heq
      exact Nat.succ_le_succ (ih hv)
    rw [List.cons_append, quotedString] at h
    cases escaped with
    | true =>
      rw [if_pos rfl] at h
      by_cases hc : c.val < 128
      · rw [if_pos hc] at h
        exact hkept h
      · rw [if_neg hc] at h
        cases h
    | false =>
      rw [if_neg Bool.false_ne_true] at h
      by_cases hquote : c = '"'
      · rw [if_pos hquote] at h
        cases h
        exact Nat.zero_le _
      · rw [if_neg hquote] at h
        by_cases hslash : c = '\\'
        · rw [if_pos hslash] at h
          exact (ih h).trans (Nat.le_succ _)
        · rw [if_neg hslash] at h
          by_cases htext : isText c = true
          · rw [if_pos htext] at h
            exact hkept h
          · rw [if_neg htext] at h
            cases h

/-- And no other text is. -/
theorem plain_of_quotedString {r : List Char}
    (h : quotedString false (s ++ ['"']) = some (s, r)) : s.all isPlain = true := by
  induction s with
  | nil => rfl
  | cons c s ih =>
    rw [List.cons_append, quotedString, if_neg Bool.false_ne_true] at h
    by_cases hquote : c = '"'
    · rw [if_pos hquote] at h
      cases h
    · rw [if_neg hquote] at h
      by_cases hslash : c = '\\'
      · -- The backslash is dropped, so that what is read is shorter.
        rw [if_pos hslash] at h
        exact absurd (length_of_quotedString h) (Nat.not_succ_le_self s.length)
      · rw [if_neg hslash] at h
        by_cases htext : isText c = true
        · rw [if_pos htext] at h
          obtain ⟨⟨v, r'⟩, hv, heq⟩ := Option.map_eq_some_iff.mp h
          cases heq
          rw [List.all_cons, Bool.and_eq_true]
          exact ⟨plain_iff.mpr ⟨htext, hquote, hslash⟩, ih hv⟩
        · rw [if_neg htext] at h
          cases h

/-- **A text is read back from between two quotes if and only if it is plain.** -/
theorem quotedString_eq_iff :
    (∃ r, quotedString false (s ++ ['"']) = some (s, r)) ↔ s.all isPlain = true :=
  ⟨fun ⟨_, h⟩ => plain_of_quotedString h, fun h => ⟨[], quotedString_of_plain h⟩⟩

/-! ## A field with one parameter -/

/-- A type and a parameter whose value is put between quotes as it is. -/
def quoted (type name v : List Char) : List Char :=
  type ++ ';' :: ' ' :: (name ++ '=' :: '"' :: (v ++ ['"']))

section

variable {type name v : List Char}

/-- What a name is made of that is read as it is. -/
def isNameChar (c : Char) : Bool := isTokenChar c && c.toLower = c

theorem dropWhile_blank_of_token (ht : t.all isTokenChar = true) (hne : t ≠ []) :
    (t ++ rest).dropWhile isBlank = t ++ rest := by
  cases t with
  | nil => exact absurd rfl hne
  | cons c t =>
    rw [List.all_cons, Bool.and_eq_true] at ht
    refine List.dropWhile_cons_of_neg ?_
    unfold isTokenChar at ht
    simp only [Bool.and_eq_true, Bool.not_eq_true'] at ht
    rw [ht.1.1.2]
    exact Bool.false_ne_true

theorem parameter_quoted (hname : name.all isNameChar = true) (hne : name ≠ []) :
    parameter (' ' :: (name ++ '=' :: '"' :: (v ++ ['"']))) =
      (quotedString false (v ++ ['"'])).map fun r => ((name, r.1), r.2) := by
  have htoken : name.all isTokenChar = true := by
    refine List.all_eq_true.mpr fun c hc => ?_
    exact (Bool.and_eq_true_iff.mp (List.all_eq_true.mp hname c hc)).1
  have hlower : name.map Char.toLower = name := by
    refine (List.map_congr_left fun c hc => ?_).trans (List.map_id name)
    exact of_decide_eq_true (Bool.and_eq_true_iff.mp (List.all_eq_true.mp hname c hc)).2
  have hblank : (' ' :: (name ++ '=' :: '"' :: (v ++ ['"']))).dropWhile isBlank =
      name ++ '=' :: '"' :: (v ++ ['"']) := by
    rw [List.dropWhile_cons_of_pos rfl, dropWhile_blank_of_token htoken hne]
  unfold parameter
  rw [hblank, token_append htoken hne rfl]
  show (value ('"' :: (v ++ ['"']))).bind (fun r => some ((name.map Char.toLower, r.1), r.2)) = _
  rw [hlower, value_quote]
  cases quotedString false (v ++ ['"']) with
  | none => rfl
  | some r => rfl

/-- **The field is read as it is meant if and only if the value is plain.** -/
theorem parse_quoted_iff (htype : type.all isTokenChar = true) (htypeNe : type ≠ [])
    (hname : name.all isNameChar = true) (hne : name ≠ []) :
    parse (quoted type name v) = some ⟨type, [(name, v)]⟩ ↔ v.all isPlain = true := by
  have htoken : token ((quoted type name v).dropWhile isBlank) =
      some (type, ';' :: ' ' :: (name ++ '=' :: '"' :: (v ++ ['"']))) := by
    unfold quoted
    rw [dropWhile_blank_of_token htype htypeNe, token_append htype htypeNe rfl]
  obtain ⟨n, hn⟩ : ∃ n, (quoted type name v).length = n + 1 := by
    refine ⟨(quoted type name v).length - 1, ?_⟩
    unfold quoted
    rw [List.length_append, List.length_cons]
    omega
  have hparse : parse (quoted type name v) = (quotedString false (v ++ ['"'])).bind fun r =>
      (parameters n r.2).map fun ps => ⟨type, (name, r.1) :: ps⟩ := by
    have hps : parameters (n + 1) (';' :: ' ' :: (name ++ '=' :: '"' :: (v ++ ['"']))) =
        (quotedString false (v ++ ['"'])).bind fun r =>
          (parameters n r.2).bind fun ps => some ((name, r.1) :: ps) := by
      rw [parameters_semicolon, parameter_quoted hname hne]
      cases quotedString false (v ++ ['"']) <;> rfl
    unfold parse
    rw [htoken, hn]
    show (parameters (n + 1) _).bind (fun ps => some (Disposition.mk type ps)) = _
    rw [hps]
    cases quotedString false (v ++ ['"']) with
    | none => rfl
    | some r =>
      rw [Option.bind_some, Option.bind_some]
      cases parameters n r.2 <;> rfl
  rw [hparse, ← quotedString_eq_iff]
  constructor
  · intro h
    obtain ⟨⟨v', r⟩, hv, hps⟩ := Option.bind_eq_some_iff.mp h
    obtain ⟨ps, _, heq⟩ := Option.map_eq_some_iff.mp hps
    cases heq
    exact ⟨r, hv⟩
  · rintro h
    rw [quotedString_of_plain (quotedString_eq_iff.mp h), Option.bind_some, parameters_nil]
    rfl

end

end ContentDisposition
